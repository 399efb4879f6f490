import Mymuduo.Buffer.Bounded
import Mymuduo.Buffer.Exceptions

/-!
# The storage of a buffer stays bounded

Where `writerIndex_ + len` fits `size_t`, making room changes the vector as on natural numbers, and
where `len + kCheapPrepend` wraps as well it only moves the readable bytes. In between the vector is
cut off below `writerIndex_`. A constructor whose own sum wraps leaves a vector of less than
`kCheapPrepend` bytes, which hardly any operation survives.
-/

namespace Mymuduo.SizeT

open Mymuduo.Library
open Mymuduo.Library.Window
open Mymuduo.Buffer (Op Grows)
open Outcome

/-- What the caller keeps to: no more than `M` bytes are to be readable at once. -/
def Within (M : Nat) (b : Buffer) (call : Op × Bool) : Prop :=
  match call.1 with
  | .append data => readableBytes b + data.length ≤ M
  | .ensureWritableBytes len => readableBytes b + len ≤ M
  | .readFd r => ∀ b' ∈ (readFd call.2 b r).left?, readableBytes b' ≤ M
  | _ => True

instance (M : Nat) (b : Buffer) : ∀ call, Decidable (Within M b call)
  | (.append _, _) | (.ensureWritableBytes _, _) => inferInstanceAs (Decidable (_ ≤ _))
  | (.readFd r, alloc) => inferInstanceAs (Decidable (∀ b' ∈ (readFd alloc b r).left?, _))
  | (.retrieve _, _) | (.retrieveAll, _) | (.retrieveAsString _, _) | (.retrieveAllAsString, _)
  | (.writeFd _, _) => .isTrue trivial

/-- `writerIndex_ + len` does not wrap alone. -/
def Joint (writerIndex_ len : Nat) : Prop :=
  writerIndex_ + len < 0x10000000000000000 ∨ 0x10000000000000000 ≤ len + kCheapPrepend

/-- No length that an operation makes room for cuts the vector off. -/
def Uncut (b : Buffer) (call : Op × Bool) : Prop :=
  match call.1 with
  | .append data => Joint b.writerIndex_ data.length
  | .ensureWritableBytes len => Joint b.writerIndex_ len
  | _ => True

instance (b : Buffer) : ∀ call, Decidable (Uncut b call)
  | (.append _, _) | (.ensureWritableBytes _, _) => inferInstanceAs (Decidable (_ < _ ∨ _ ≤ _))
  | (.retrieve _, _) | (.retrieveAll, _) | (.retrieveAsString _, _) | (.retrieveAllAsString, _)
  | (.readFd _, _) | (.writeFd _, _) => .isTrue trivial

/-! ## Making room -/

/-- What a call does to a buffer whose constructor has not wrapped. -/
def Steady (M n : Nat) (b : Buffer) : Prop := Sound b ∧ Grows M n b.buffer_.length

theorem Sound.steady {M : Nat} {b : Buffer} (h : Sound b) : Steady M b.buffer_.length b :=
  ⟨h, .refl M _⟩

/-- Bytes that are moved leave the vector as long as it is. -/
theorem Sound.moves {M : Nat} {b : Buffer} (h : Sound b) {v : List Byte}
    (hv : Buffer.stdCopy b.buffer_ b.readerIndex_ b.readableBytes kCheapPrepend = some v) :
    Steady M b.buffer_.length
      { buffer_ := v
        readerIndex_ := kCheapPrepend
        writerIndex_ := addSize kCheapPrepend b.readableBytes } := by
  have hlen := length_stdCopy hv
  have hp : 8 ≤ b.readerIndex_ := h.wf.prepend
  have ho := h.wf.ordered
  have hi := h.wf.inside
  have hsize : b.buffer_.length ≤ 0x7fffffffffffffff := h.size
  have hend : 8 + b.readableBytes ≤ b.buffer_.length := by
    rw [Buffer.readableBytes]
    omega
  have hsum : addSize kCheapPrepend b.readableBytes = kCheapPrepend + b.readableBytes :=
    addSize_of_lt (by rw [kCheapPrepend]; omega)
  rw [hsum]
  refine ⟨⟨⟨Nat.le_refl _, Nat.le_add_right _ _, ?_, fun _ => rfl⟩, ?_⟩, ?_⟩
  · show 8 + b.readableBytes ≤ v.length
    omega
  · show v.length ≤ maxSize
    rw [hlen]
    exact h.size
  · show Grows M b.buffer_.length v.length
    rw [hlen]
    exact .refl M _

/-- Both sums wrap: the test takes the bytes in front for room enough. -/
theorem Sound.makeSpace_wrapped {M : Nat} {b : Buffer} (h : Sound b) (alloc : Bool) {len : Nat}
    (hlen : len < 0x10000000000000000) (hwrap : 0x10000000000000000 ≤ len + kCheapPrepend) :
    (SizeT.makeSpace alloc b len).Leaves (Steady M b.buffer_.length) := by
  have hp : 8 ≤ b.readerIndex_ := h.wf.prepend
  have ho := h.wf.ordered
  have hi := h.wf.inside
  have hsize : b.buffer_.length ≤ 0x7fffffffffffffff := h.size
  have hfree : ¬addSize b.writableBytes b.prependableBytes < addSize len kCheapPrepend := by
    rw [addSize_of_ge hlen (by decide) hwrap, kCheapPrepend,
      addSize_of_lt (by rw [Buffer.writableBytes, Buffer.prependableBytes]; omega),
      Buffer.writableBytes, Buffer.prependableBytes]
    omega
  rw [SizeT.makeSpace, h.writableBytes_eq, if_neg hfree, h.ordered.readableBytes_eq]
  dsimp only
  split
  · rename_i v hv
    exact leaves_returned (h.moves hv)
  · exact leaves_outside

theorem Sound.steady_ensureWritableBytes {M : Nat} {b : Buffer} (h : Sound b) (alloc : Bool)
    {len : Nat} (hlen : len < 0x10000000000000000) (hM : b.readableBytes + len ≤ M)
    (hjoint : Joint b.writerIndex_ len) :
    (SizeT.ensureWritableBytes alloc b len).Leaves (Steady M b.buffer_.length) := by
  rw [SizeT.ensureWritableBytes, h.writableBytes_eq]
  split
  swap
  · exact leaves_returned h.steady
  rename_i hlt
  rcases hjoint with hfits | hwrap
  · have hsound := h.ensureWritableBytes alloc hfits
    rw [SizeT.ensureWritableBytes, h.writableBytes_eq, if_pos hlt] at hsound
    obtain ⟨b', hb', hspace, -⟩ | hthrew | ⟨hout, -⟩ := h.makeSpace_cases alloc hfits
    · rw [hb'] at hsound ⊢
      exact leaves_returned ⟨hsound b' rfl, Buffer.grows_makeSpace h.wf hlt hM hspace⟩
    · rw [hthrew]
      exact leaves_threw h.steady
    · rw [hout]
      exact leaves_outside
  · exact h.makeSpace_wrapped alloc hlen hwrap

theorem Sound.steady_append {M : Nat} {b : Buffer} (h : Sound b) (alloc : Bool) {data : List Byte}
    (hlen : data.length < 0x10000000000000000) (hM : b.readableBytes + data.length ≤ M)
    (hjoint : Joint b.writerIndex_ data.length) :
    (SizeT.append alloc b data).Leaves (Steady M b.buffer_.length) := by
  refine (h.steady_ensureWritableBytes alloc hlen hM hjoint).bind (fun _ m hm => ?_) fun _ hm => hm
  intro b' hb'
  refine ⟨hm.1.copyIn data b' hb', ?_⟩
  unfold SizeT.copyIn at hb'
  split at hb'
  · rename_i v hv
    obtain rfl := Option.some.inj hb'
    show Grows M b.buffer_.length v.length
    rw [length_of_overwrite hv]
    exact hm.2
  · cases hb'

theorem Sound.steady_readFd {M : Nat} {b : Buffer} (h : Sound b) (alloc : Bool) {r : ReadvResult}
    (hsized : Sized b (.readFd r))
    (hM : ∀ b' ∈ (SizeT.readFd alloc b r).left?, readableBytes b' ≤ M) :
    (SizeT.readFd alloc b r).Leaves (Steady M b.buffer_.length) := by
  intro b' hb'
  refine ⟨h.readFd alloc r hsized b' hb', ?_⟩
  have hsound := h.readFd alloc r hsized b' hb'
  have hmost := hM b' hb'
  cases r with
  | failed errno =>
    obtain rfl := Option.some.inj hb'
    exact .refl M _
  | delivered bytes =>
    have hcap : bytes.length ≤ SizeT.readCapacity b := hsized
    have hsize : b.buffer_.length ≤ 0x7fffffffffffffff := h.size
    rw [SizeT.readCapacity, extrabufSize] at hcap
    rw [SizeT.readFd] at hb'
    split at hb'
    swap
    · cases hb'
    rename_i v hv
    have hlen := length_of_overwrite hv
    split at hb'
    · obtain rfl := Option.some.inj hb'
      show Grows M b.buffer_.length v.length
      rw [hlen]
      exact .refl M _
    · -- the vector is full, and `extrabuf` holds the rest
      have hextra : v.length + (bytes.drop (SizeT.writableBytes b)).length <
          0x10000000000000000 := by
        rw [List.length_drop]
        split at hcap <;> omega
      obtain ⟨c, hc, hc', hcont⟩ | ⟨hthrew, -⟩ := (h.fill hlen).append_cases alloc hextra
      · rw [hc] at hb'
        obtain rfl := Option.some.inj hb'
        rw [hsound.ordered.readableBytes_eq, ← hsound.wf.length_contents, hcont, List.length_append,
          (h.fill hlen).wf.length_contents] at hmost
        have hgrows := (h.fill hlen).steady_append (M := M) alloc (by omega) hmost (.inl hextra) c
          (by rw [hc]; rfl)
        rw [← hlen]
        exact hgrows.2
      · rw [hthrew] at hb'
        obtain rfl := Option.some.inj hb'
        show Grows M b.buffer_.length v.length
        rw [hlen]
        exact .refl M _

theorem Sound.steady_retrieve {M : Nat} {b : Buffer} (h : Sound b) (len : Nat) :
    Steady M b.buffer_.length (SizeT.retrieve b len) := by
  refine ⟨h.retrieve len, ?_⟩
  rw [h.ordered.retrieve_eq, Buffer.length_retrieve]
  exact .refl M _

theorem Sound.steady_retrieveAsString {M : Nat} {b : Buffer} (h : Sound b) (len : Nat) :
    (SizeT.retrieveAsString b len).Leaves (Steady M b.buffer_.length) := by
  unfold SizeT.retrieveAsString
  split
  · exact leaves_returned (h.steady_retrieve len)
  · exact leaves_outside

theorem Sound.steady_apply {M : Nat} {b : Buffer} (h : Sound b) {call : Op × Bool}
    (hsized : Sized b call.1) (hwithin : Within M b call) (huncut : Uncut b call) :
    (SizeT.apply call.2 b call.1).Leaves (Steady M b.buffer_.length) := by
  obtain ⟨op, alloc⟩ := call
  cases op with
  | append data =>
    have hM : SizeT.readableBytes b + data.length ≤ M := hwithin
    rw [h.ordered.readableBytes_eq] at hM
    exact (h.steady_append alloc hsized hM huncut).reply
  | ensureWritableBytes len =>
    have hM : SizeT.readableBytes b + len ≤ M := hwithin
    rw [h.ordered.readableBytes_eq] at hM
    exact (h.steady_ensureWritableBytes alloc hsized hM huncut).reply
  | retrieve len => exact leaves_returned (h.steady_retrieve len)
  | retrieveAll => exact leaves_returned ⟨⟨h.wf.retrieveAll, h.size⟩, .refl M _⟩
  | retrieveAsString len => exact (h.steady_retrieveAsString len).reply
  | retrieveAllAsString => exact (h.steady_retrieveAsString _).reply
  | readFd r => exact (h.steady_readFd alloc hsized hwithin).reply
  | writeFd r =>
    refine Leaves.reply ?_
    unfold SizeT.writeFd
    split
    · exact leaves_returned h.steady
    · exact leaves_outside

/-! ## A constructor whose sum wraps -/

/-- The indices point behind the vector. -/
structure Tiny (b : Buffer) : Prop where
  reader : b.readerIndex_ = kCheapPrepend
  writer : b.writerIndex_ = kCheapPrepend
  short : b.buffer_.length < kCheapPrepend

theorem sound_or_tiny {alloc : Bool} {initialSize : Nat} {b : Buffer}
    (hsize : initialSize < 0x10000000000000000) (h : new alloc initialSize = some b) :
    (Sound b ∨ Tiny b) ∧ b.buffer_.length ≤ 8 + initialSize := by
  by_cases hfits : kCheapPrepend + initialSize < 0x10000000000000000
  · refine ⟨.inl (sound_new hfits h), ?_⟩
    simp only [new, Option.ite_none_left_eq_some, Option.some.injEq] at h
    obtain ⟨-, rfl⟩ := h
    rw [List.length_replicate, addSize_of_lt hfits, kCheapPrepend]
  · have hsum : addSize kCheapPrepend initialSize = 8 + initialSize - 0x10000000000000000 :=
      addSize_of_ge (by decide) hsize (by omega)
    simp only [new, Option.ite_none_left_eq_some, Option.some.injEq] at h
    obtain ⟨-, rfl⟩ := h
    refine ⟨.inr ⟨rfl, rfl, ?_⟩, ?_⟩
    · show (List.replicate _ _).length < 8
      rw [List.length_replicate, hsum]
      omega
    · rw [List.length_replicate, hsum]
      omega

theorem Tiny.readableBytes_eq {b : Buffer} (h : Tiny b) : readableBytes b = 0 := by
  rw [readableBytes, h.reader, h.writer]
  rfl

theorem Tiny.writableBytes_eq {b : Buffer} (h : Tiny b) :
    writableBytes b = b.buffer_.length + 0xfffffffffffffff8 := by
  have hshort : b.buffer_.length < 8 := h.short
  rw [writableBytes, h.writer, subSize, kCheapPrepend]
  omega

/-- A vector of a few bytes stays one. -/
def Few (M n : Nat) (b : Buffer) : Prop := Tiny b ∧ Grows M n b.buffer_.length

theorem Tiny.few {M : Nat} {b : Buffer} (h : Tiny b) : Few M b.buffer_.length b := ⟨h, .refl M _⟩

/-- There seems to be room for all but the largest lengths, and those grow the vector a little. -/
theorem Tiny.ensureWritableBytes {M : Nat} {b : Buffer} (h : Tiny b) (alloc : Bool) {len : Nat}
    (hlen : len < 0x10000000000000000) (hM : readableBytes b + len ≤ M) :
    (SizeT.ensureWritableBytes alloc b len).Leaves (Few M b.buffer_.length) := by
  have hshort : b.buffer_.length < 8 := h.short
  rw [h.readableBytes_eq, Nat.zero_add] at hM
  rw [SizeT.ensureWritableBytes, h.writableBytes_eq]
  split
  swap
  · exact leaves_returned h.few
  rename_i hlt
  have hfree : addSize (b.buffer_.length + 0xfffffffffffffff8) b.prependableBytes =
      b.buffer_.length := by
    rw [Buffer.prependableBytes, h.reader, kCheapPrepend,
      addSize_of_ge (by omega) (by decide) (by omega)]
    omega
  have hneed : addSize len kCheapPrepend = len + 8 - 0x10000000000000000 :=
    addSize_of_ge hlen (by decide) (by rw [kCheapPrepend]; omega)
  have hnew : addSize b.writerIndex_ len = len + 8 - 0x10000000000000000 := by
    rw [h.writer, kCheapPrepend, addSize_of_ge (by decide) hlen (by omega)]
    omega
  rw [SizeT.makeSpace, h.writableBytes_eq, hfree, hneed, if_pos (by omega), hnew]
  split
  · rename_i v hv
    simp only [vectorResize, Option.ite_none_left_eq_some, Option.some.injEq] at hv
    obtain ⟨-, rfl⟩ := hv
    refine leaves_returned ⟨⟨h.reader, h.writer, ?_⟩, ?_⟩
    · show (resize b.buffer_ _ 0).length < 8
      rw [length_resize]
      omega
    · show Grows M b.buffer_.length (resize b.buffer_ _ 0).length
      rw [length_resize]
      exact ⟨by omega, by omega, fun hlong => by omega⟩
  · exact leaves_threw h.few

/-- Nothing can be copied to or from behind the vector. -/
theorem Tiny.apply {M : Nat} {b : Buffer} (h : Tiny b) {call : Op × Bool}
    (hsized : Sized b call.1) (hwithin : Within M b call) :
    (SizeT.apply call.2 b call.1).Leaves (Few M b.buffer_.length) := by
  have hnowhere : ∀ {b : Buffer}, Tiny b → ∀ xs, overwrite b.buffer_ b.writerIndex_ xs = none := by
    intro b h xs
    have hshort := h.short
    refine if_neg fun hfits => ?_
    rw [h.writer] at hfits
    omega
  have hnothing : ∀ len, readRange b.buffer_ b.readerIndex_ len = none := by
    intro len
    have hshort := h.short
    refine if_neg fun hfits => ?_
    rw [h.reader] at hfits
    omega
  have hfresh : ∀ len, SizeT.retrieve b len = b := by
    intro len
    rw [SizeT.retrieve, h.readableBytes_eq, if_neg (Nat.not_lt_zero len), Buffer.retrieveAll,
      ← h.reader]
    nth_rewrite 2 [h.reader]
    rw [← h.writer]
  obtain ⟨op, alloc⟩ := call
  cases op with
  | append data =>
    refine Leaves.reply ((h.ensureWritableBytes alloc hsized hwithin).bind (fun _ m hm => ?_)
      fun _ hm => hm)
    rw [SizeT.copyIn, hnowhere hm.1]
    exact leaves_outside
  | ensureWritableBytes len => exact (h.ensureWritableBytes alloc hsized hwithin).reply
  | retrieve len =>
    rw [SizeT.apply, hfresh]
    exact leaves_returned h.few
  | retrieveAll =>
    refine leaves_returned ⟨⟨rfl, rfl, h.short⟩, .refl M _⟩
  | retrieveAsString len =>
    refine Leaves.reply ?_
    rw [SizeT.retrieveAsString, hnothing]
    exact leaves_outside
  | retrieveAllAsString =>
    refine Leaves.reply ?_
    rw [SizeT.retrieveAllAsString, SizeT.retrieveAsString, hnothing]
    exact leaves_outside
  | readFd r =>
    cases r with
    | failed errno => exact leaves_returned h.few
    | delivered bytes =>
      refine Leaves.reply ?_
      rw [SizeT.readFd, hnowhere h]
      exact leaves_outside
  | writeFd r =>
    refine Leaves.reply ?_
    rw [SizeT.writeFd, hnothing]
    exact leaves_outside

/-! ## Runs -/

/-- What a run keeps of the buffer that it started from with `n` bytes of storage. -/
def Kept (M n : Nat) (b : Buffer) : Prop := (Sound b ∨ Tiny b) ∧ Grows M n b.buffer_.length

theorem Kept.step {M n : Nat} {b b' : Buffer} (h : Kept M n b) {call : Op × Bool}
    (hwithin : Within M b call) (huncut : Uncut b call) (hs : SizeT.step b call = some b') :
    Kept M n b' := by
  rw [SizeT.step, Option.ite_none_right_eq_some] at hs
  obtain ⟨hsized, hs⟩ := hs
  rcases h.1 with hsound | htiny
  · obtain ⟨hsound', hgrows⟩ := hsound.steady_apply hsized hwithin huncut b' hs
    exact ⟨.inl hsound', h.2.trans hgrows⟩
  · obtain ⟨htiny', hgrows⟩ := htiny.apply hsized hwithin b' hs
    exact ⟨.inr htiny', h.2.trans hgrows⟩

theorem Kept.exec {M n : Nat} {b b' : Buffer} (h : Kept M n b) {calls : List (Op × Bool)}
    (hg : Execution.Guarded SizeT.step (fun b call => Within M b call ∧ Uncut b call) b calls)
    (hr : Execution.exec SizeT.step b calls = some b') : Kept M n b' :=
  Execution.exec_invariant (Kept M n) (fun _ _ _ h hok hs => h.step hok.1 hok.2 hs) h hg hr

/-- The vector is left as long as it was, or longer. -/
def NotCut (b : Buffer) (o : Outcome Unit) : Prop :=
  o.Leaves fun c => b.buffer_.length ≤ c.buffer_.length

/-- The next length cuts the vector off exactly if its sum wraps alone. -/
theorem Kept.notCut_iff {M n : Nat} {b : Buffer} (h : Kept M n b) (alloc : Bool) {len : Nat}
    (hlen : len < 0x10000000000000000) (hM : readableBytes b + len ≤ M) :
    NotCut b (SizeT.ensureWritableBytes alloc b len) ↔ Joint b.writerIndex_ len := by
  constructor
  · intro hkeeps
    by_contra hjoint
    rw [Joint, not_or, Nat.not_lt, Nat.not_le] at hjoint
    obtain ⟨hwrap, hfits⟩ := hjoint
    rcases h.1 with hsound | htiny
    · obtain ⟨v, hv, hshort⟩ := hsound.cuts alloc hfits hwrap
      rw [hv] at hkeeps
      have hlong : b.buffer_.length ≤ v.length := hkeeps _ rfl
      have hinside := hsound.wf.inside
      omega
    · rw [htiny.writer] at hwrap
      omega
  · intro hjoint
    rcases h.1 with hsound | htiny
    · rw [hsound.ordered.readableBytes_eq] at hM
      exact fun c hc => (hsound.steady_ensureWritableBytes alloc hlen hM hjoint c hc).2.no_shrink
    · exact fun c hc => (htiny.ensureWritableBytes alloc hlen hM c hc).2.no_shrink

/-- A buffer that is never to hold more than `M` readable bytes, in a run in which no length cuts
the vector off: the vector never exceeds `max (8 + initialSize) (2 * M + 8)` and never shrinks; and
from a point on where it has `M + 8` bytes it is not resized any more. In every state of such a run
the next length cuts the vector off exactly if it does not meet the condition. -/
theorem storage_bounded {alloc : Bool} {initialSize : Nat} {b₀ b b' : Buffer} (M : Nat)
    (hsize : initialSize < 0x10000000000000000) (hnew : new alloc initialSize = some b₀)
    (calls calls' : List (Op × Bool))
    (hg : Execution.Guarded step (fun b call => Within M b call ∧ Uncut b call) b₀ calls)
    (hr : Execution.exec step b₀ calls = some b)
    (hg' : Execution.Guarded step (fun b call => Within M b call ∧ Uncut b call) b calls')
    (hr' : Execution.exec step b calls' = some b') :
    (b.buffer_.length ≤ max (8 + initialSize) (2 * M + 8) ∧
      b.buffer_.length ≤ b'.buffer_.length ∧
      (M + 8 ≤ b.buffer_.length → b'.buffer_.length = b.buffer_.length)) ∧
    ∀ alloc' len, len < 0x10000000000000000 → readableBytes b + len ≤ M →
      (NotCut b (ensureWritableBytes alloc' b len) ↔ Joint b.writerIndex_ len) := by
  obtain ⟨hstart, hlen⟩ := sound_or_tiny hsize hnew
  have hkept : Kept M b₀.buffer_.length b := Kept.exec ⟨hstart, .refl M _⟩ hg hr
  have hkept' : Kept M b.buffer_.length b' := Kept.exec ⟨hkept.1, .refl M _⟩ hg' hr'
  refine ⟨⟨?_, hkept'.2.no_shrink, hkept'.2.settled⟩, fun alloc' len hsized hM =>
    hkept.notCut_iff alloc' hsized hM⟩
  have hbounded := hkept.2.bounded
  omega

/-- A small buffer that is filled twice: it grows once, then it is large enough. -/
theorem storage_bounded_twice : ∃ b₀ b b', new true 1 = some b₀ ∧
    Execution.exec step b₀ [(.append [1, 2, 3], true), (.retrieve 2, true)] = some b ∧
    Execution.exec step b [(.append [4, 5], true), (.readFd (.delivered []), true)] = some b' ∧
      b.buffer_.length ≤ 14 ∧ b'.buffer_.length = b.buffer_.length := by
  have hnew : new true 1 = some ⟨List.replicate 9 0, 8, 8⟩ := by decide
  have hr : Execution.exec step ⟨List.replicate 9 0, 8, 8⟩ [(.append [1, 2, 3], true),
      (.retrieve 2, true)] = some ⟨[0, 0, 0, 0, 0, 0, 0, 0, 1, 2, 3], 10, 11⟩ := by decide
  obtain ⟨b', hr'⟩ := Option.isSome_iff_exists.mp (by decide : (Execution.exec step
    ⟨[0, 0, 0, 0, 0, 0, 0, 0, 1, 2, 3], 10, 11⟩
    [(.append [4, 5], true), (.readFd (.delivered []), true)]).isSome = true)
  obtain ⟨⟨hbound, -, hsettled⟩, -⟩ := storage_bounded 3 (by decide) hnew _ _ (by decide) hr
    (by decide) hr'
  exact ⟨_, _, b', hnew, hr, hr', hbound, hsettled (by decide)⟩

/-- `Buffer(2)`, one byte appended, and a length whose sum with `writerIndex_` is 2^64. -/
theorem storage_bounded_fails :
    ¬∀ alloc initialSize b₀ b b' M, initialSize < 0x10000000000000000 →
      new alloc initialSize = some b₀ → ∀ calls calls',
      Execution.Guarded step (Within M) b₀ calls → Execution.exec step b₀ calls = some b →
      Execution.Guarded step (Within M) b calls' → Execution.exec step b calls' = some b' →
      b.buffer_.length ≤ max (8 + initialSize) (2 * M + 8) ∧
      b.buffer_.length ≤ b'.buffer_.length ∧
      (M + 8 ≤ b.buffer_.length → b'.buffer_.length = b.buffer_.length) := by
  intro h
  obtain ⟨-, hshrinks, -⟩ := h true 2 ⟨List.replicate 10 0, 8, 8⟩
    ⟨[0, 0, 0, 0, 0, 0, 0, 0, 1, 0], 8, 9⟩ ⟨[], 8, 9⟩ 0xfffffffffffffff8 (by decide) (by decide)
    [(.append [1], true)] [(.ensureWritableBytes 0xfffffffffffffff7, true)] (by decide) (by decide)
    (by decide) (by decide)
  exact absurd hshrinks (by decide)

end Mymuduo.SizeT

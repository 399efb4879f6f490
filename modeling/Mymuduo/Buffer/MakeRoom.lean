import Mymuduo.Buffer.SizeT

/-!
# Making room in the arithmetic of `size_t`

`ensureWritableBytes` forms `len + kCheapPrepend` and `writerIndex_ + len`. While
the second fits `size_t`, so does the first, and the call does what it does on
natural numbers unless `resize` throws. When the second wraps, either the first
wraps too and the call moves the readable bytes instead of growing, or `resize`
cuts the vector off below `writerIndex_`.
-/

namespace Mymuduo.SizeT

open Mymuduo.Library
open Mymuduo.Library.Window
open Mymuduo.Buffer (Op)
open Outcome

/-- The call throws and leaves the buffer as it was, or it returns with room for
`len` bytes, the same readable bytes and indices in order. -/
def MakesRoom (b : Buffer) (len : Nat) : Outcome Unit → Prop
  | .returned _ b' =>
    len ≤ writableBytes b' ∧ b'.contents = b.contents ∧
      kCheapPrepend ≤ b'.readerIndex_ ∧ b'.readerIndex_ ≤ b'.writerIndex_ ∧
      b'.writerIndex_ ≤ b'.buffer_.length
  | .threw b' => b' = b
  | .outside => False

/-- No length that an operation adds to `writerIndex_` makes the sum wrap. -/
def Fits (b : Buffer) (call : Op × Bool) : Prop :=
  match call.1 with
  | .append data => b.writerIndex_ + data.length < 0x10000000000000000
  | .ensureWritableBytes len => b.writerIndex_ + len < 0x10000000000000000
  | _ => True

instance (b : Buffer) : ∀ call, Decidable (Fits b call)
  | (.append _, _) | (.ensureWritableBytes _, _) => inferInstanceAs (Decidable (_ < _))
  | (.retrieve _, _) | (.retrieveAll, _) | (.retrieveAsString _, _) | (.retrieveAllAsString, _)
  | (.readFd _, _) | (.writeFd _, _) => .isTrue trivial

/-- The invariant of the indices, and a vector that `resize` could have made. -/
structure Sound (b : Buffer) : Prop where
  wf : b.WF
  size : b.buffer_.length ≤ maxSize

theorem Sound.ordered {b : Buffer} (h : Sound b) : Ordered b where
  prepend := h.wf.prepend
  ordered := h.wf.ordered
  writer := h.wf.inside.trans h.size
  size := h.size

theorem Sound.writableBytes_eq {b : Buffer} (h : Sound b) :
    SizeT.writableBytes b = b.writableBytes := by
  have hsize := h.size
  rw [maxSize] at hsize
  exact subSize_of_le h.wf.inside (by omega)

theorem sound_new {alloc : Bool} {initialSize : Nat} {b : Buffer}
    (hfits : kCheapPrepend + initialSize < 0x10000000000000000)
    (h : new alloc initialSize = some b) : Sound b := by
  have hmax := (ordered_new h).size
  simp only [new, Option.ite_none_left_eq_some, Option.some.injEq] at h
  obtain ⟨-, rfl⟩ := h
  rw [addSize_of_lt hfits] at hmax ⊢
  exact ⟨Buffer.wf_new initialSize, hmax⟩

/-! ## Sums that do not wrap -/

theorem Sound.makeSpace_cases {b : Buffer} (h : Sound b) (alloc : Bool) {len : Nat}
    (hfits : b.writerIndex_ + len < 0x10000000000000000) :
    (∃ b', SizeT.makeSpace alloc b len = .returned () b' ∧ b.makeSpace len = some b' ∧
      b'.buffer_.length ≤ maxSize) ∨
    SizeT.makeSpace alloc b len = .threw b ∨ SizeT.makeSpace alloc b len = .outside ∧
      b.makeSpace len = none := by
  have hp : 8 ≤ b.readerIndex_ := h.wf.prepend
  have ho := h.wf.ordered
  have hi := h.wf.inside
  have hsize : b.buffer_.length ≤ 0x7fffffffffffffff := h.size
  have hfree : addSize b.writableBytes b.prependableBytes =
      b.writableBytes + b.prependableBytes := by
    refine addSize_of_lt ?_
    rw [Buffer.writableBytes, Buffer.prependableBytes]
    omega
  have hneed : addSize len kCheapPrepend = len + kCheapPrepend :=
    addSize_of_lt (by rw [kCheapPrepend]; omega)
  rw [SizeT.makeSpace, Buffer.makeSpace, h.writableBytes_eq, hfree, hneed,
    h.ordered.readableBytes_eq, addSize_of_lt hfits]
  split
  · cases hv : vectorResize alloc b.buffer_ (b.writerIndex_ + len) with
    | none => exact .inr (.inl rfl)
    | some v =>
      have hlen := length_vectorResize hv h.size
      rw [vectorResize, Option.ite_none_left_eq_some, Option.some.injEq] at hv
      obtain ⟨-, rfl⟩ := hv
      exact .inl ⟨_, rfl, rfl, hlen⟩
  · have hread : addSize kCheapPrepend b.readableBytes = kCheapPrepend + b.readableBytes := by
      refine addSize_of_lt ?_
      rw [kCheapPrepend, Buffer.readableBytes]
      omega
    dsimp only
    cases hv : Buffer.stdCopy b.buffer_ b.readerIndex_ b.readableBytes kCheapPrepend with
    | none => exact .inr (.inr ⟨rfl, rfl⟩)
    | some v =>
      rw [hread]
      refine .inl ⟨_, rfl, rfl, ?_⟩
      show v.length ≤ maxSize
      rw [length_stdCopy hv]
      exact h.size

/-- Where nothing wraps the call does what it does on natural numbers, or throws. -/
theorem Sound.ensureWritableBytes_cases {b : Buffer} (h : Sound b) (alloc : Bool) {len : Nat}
    (hfits : b.writerIndex_ + len < 0x10000000000000000) :
    (∃ b', SizeT.ensureWritableBytes alloc b len = .returned () b' ∧ Sound b' ∧
      b'.contents = b.contents ∧ len ≤ b'.writableBytes) ∨
    SizeT.ensureWritableBytes alloc b len = .threw b := by
  obtain ⟨b', hb', hwf, hcont, hroom⟩ := Buffer.ensureWritableBytes_spec h.wf len
  rw [Buffer.ensureWritableBytes] at hb'
  rw [SizeT.ensureWritableBytes, h.writableBytes_eq]
  split at hb'
  · rename_i hlt
    rw [if_pos hlt]
    obtain ⟨m, hm, hspace, hlen⟩ | hthrew | ⟨-, hnone⟩ := h.makeSpace_cases alloc hfits
    · obtain rfl := Option.some.inj (hspace.symm.trans hb')
      exact .inl ⟨m, hm, ⟨hwf, hlen⟩, hcont, hroom⟩
    · exact .inr hthrew
    · rw [hnone] at hb'
      cases hb'
  · rename_i hge
    rw [if_neg hge]
    obtain rfl := Option.some.inj hb'
    exact .inl ⟨b, rfl, h, rfl, hroom⟩

theorem Sound.ensureWritableBytes {b : Buffer} (h : Sound b) (alloc : Bool) {len : Nat}
    (hfits : b.writerIndex_ + len < 0x10000000000000000) :
    (SizeT.ensureWritableBytes alloc b len).Leaves Sound := by
  obtain ⟨b', hb', hsound, -⟩ | hthrew := h.ensureWritableBytes_cases alloc hfits
  · rw [hb']
    exact leaves_returned hsound
  · rw [hthrew]
    exact leaves_threw h

/-- The writing end moves over bytes that fit into the vector. -/
theorem Sound.write {b : Buffer} (h : Sound b) {v : List Byte}
    (hlen : v.length = b.buffer_.length) {n : Nat} (hfits : b.writerIndex_ + n ≤ v.length) :
    Sound { b with buffer_ := v, writerIndex_ := addSize b.writerIndex_ n } := by
  have ho := h.wf.ordered
  have hr := h.wf.reset
  have hsize : b.buffer_.length ≤ 0x7fffffffffffffff := h.size
  rw [addSize_of_lt (by omega : b.writerIndex_ + n < 0x10000000000000000)]
  refine ⟨⟨h.wf.prepend, ?_, ?_, ?_⟩, ?_⟩
  · show b.readerIndex_ ≤ b.writerIndex_ + n
    omega
  · show b.writerIndex_ + n ≤ v.length
    omega
  · show b.readerIndex_ = b.writerIndex_ + n → b.readerIndex_ = kCheapPrepend
    intro he
    exact hr (by omega)
  · show v.length ≤ 0x7fffffffffffffff
    omega

/-- A vector that is filled to its end. -/
theorem Sound.fill {b : Buffer} (h : Sound b) {v : List Byte}
    (hlen : v.length = b.buffer_.length) :
    Sound { b with buffer_ := v, writerIndex_ := v.length } := by
  have ho := h.wf.ordered
  have hi := h.wf.inside
  have hr := h.wf.reset
  have hsize := h.size
  refine ⟨⟨h.wf.prepend, ?_, Nat.le_refl _, ?_⟩, ?_⟩
  · show b.readerIndex_ ≤ v.length
    omega
  · show b.readerIndex_ = v.length → b.readerIndex_ = kCheapPrepend
    intro he
    exact hr (by omega)
  · show v.length ≤ maxSize
    omega

/-- A vector written to at its writing end keeps the invariant. -/
theorem Sound.copyIn {b : Buffer} (h : Sound b) (data : List Byte) :
    (SizeT.copyIn data b).Leaves Sound := by
  unfold SizeT.copyIn
  split
  · rename_i v hv
    have hfits := fits_of_overwrite hv
    have hlen := length_of_overwrite hv
    exact leaves_returned (h.write hlen (by omega))
  · exact leaves_outside

theorem Sound.append {b : Buffer} (h : Sound b) (alloc : Bool) {data : List Byte}
    (hfits : b.writerIndex_ + data.length < 0x10000000000000000) :
    (SizeT.append alloc b data).Leaves Sound :=
  (h.ensureWritableBytes alloc hfits).bind (fun _ _ h' => h'.copyIn data) fun _ h' => h'

/-- What `readv` leaves in `extrabuf` is short. -/
theorem Sound.readFd {b : Buffer} (h : Sound b) (alloc : Bool) (r : ReadvResult)
    (hsized : Sized b (.readFd r)) : (SizeT.readFd alloc b r).Leaves Sound := by
  cases r with
  | failed errno => exact leaves_returned h
  | delivered bytes =>
    have hcap : bytes.length ≤ SizeT.readCapacity b := hsized
    rw [SizeT.readCapacity] at hcap
    rw [SizeT.readFd]
    split
    · rename_i v hv
      have hin := fits_of_overwrite hv
      have hlen := length_of_overwrite hv
      have hsize : b.buffer_.length ≤ 0x7fffffffffffffff := h.size
      split
      · rename_i hlt
        rw [List.take_of_length_le (Nat.le_of_lt hlt)] at hin
        exact leaves_returned (h.write hlen (by omega))
      · -- the vector is full
        have hfull := h.fill hlen
        have hextra : v.length + (bytes.drop (SizeT.writableBytes b)).length <
            0x10000000000000000 := by
          rw [List.length_drop]
          rw [extrabufSize] at hcap
          split at hcap <;> omega
        exact (hfull.append alloc hextra).bind (fun _ _ h' => leaves_returned h') fun _ h' => h'
    · exact leaves_outside

theorem Sound.retrieve {b : Buffer} (h : Sound b) (len : Nat) : Sound (SizeT.retrieve b len) := by
  rw [h.ordered.retrieve_eq]
  refine ⟨h.wf.retrieve len, ?_⟩
  unfold Buffer.retrieve
  split <;> exact h.size

theorem Sound.retrieveAsString {b : Buffer} (h : Sound b) (len : Nat) :
    (SizeT.retrieveAsString b len).Leaves Sound := by
  unfold SizeT.retrieveAsString
  split
  · exact leaves_returned (h.retrieve len)
  · exact leaves_outside

theorem Sound.apply {b : Buffer} (h : Sound b) (alloc : Bool) {op : Op} (hsized : Sized b op)
    (hfits : Fits b (op, alloc)) : (SizeT.apply alloc b op).Leaves Sound := by
  cases op with
  | append data => exact (h.append alloc hfits).reply
  | ensureWritableBytes len => exact (h.ensureWritableBytes alloc hfits).reply
  | retrieve len => exact leaves_returned (h.retrieve len)
  | retrieveAll => exact leaves_returned ⟨h.wf.retrieveAll, h.size⟩
  | retrieveAsString len => exact (h.retrieveAsString len).reply
  | retrieveAllAsString => exact (h.retrieveAsString _).reply
  | readFd r => exact (h.readFd alloc r hsized).reply
  | writeFd r =>
    refine Leaves.reply ?_
    unfold SizeT.writeFd
    split
    · exact leaves_returned h
    · exact leaves_outside

theorem Sound.step {b b' : Buffer} (h : Sound b) {call : Op × Bool} (hfits : Fits b call)
    (hs : SizeT.step b call = some b') : Sound b' := by
  rw [SizeT.step, Option.ite_none_right_eq_some] at hs
  exact h.apply call.2 hs.1 hfits b' hs.2

/-- A buffer after its constructor and any operations none of whose sums wraps. -/
def Unwrapped (b : Buffer) : Prop :=
  ∃ alloc initialSize b₀ calls, kCheapPrepend + initialSize < 0x10000000000000000 ∧
    new alloc initialSize = some b₀ ∧ Execution.Guarded SizeT.step Fits b₀ calls ∧
    Execution.exec SizeT.step b₀ calls = some b

theorem Unwrapped.sound {b : Buffer} (h : Unwrapped b) : Sound b := by
  obtain ⟨alloc, initialSize, b₀, calls, hinit, hnew, hfits, hrun⟩ := h
  exact Execution.exec_invariant Sound (fun _ _ _ hi hok hs => hi.step hok hs)
    (sound_new hinit hnew) hfits hrun

/-! ## Sums that wrap -/

/-- `len + kCheapPrepend` wraps: the readable bytes are moved, and there is no room. -/
theorem Sound.compacts {b : Buffer} (h : Sound b) (alloc : Bool) {len : Nat}
    (hlen : len < 0x10000000000000000) (hwrap : 0x10000000000000000 ≤ len + kCheapPrepend) :
    ¬MakesRoom b len (SizeT.ensureWritableBytes alloc b len) := by
  have hp : 8 ≤ b.readerIndex_ := h.wf.prepend
  have ho := h.wf.ordered
  have hi := h.wf.inside
  have hsize : b.buffer_.length ≤ 0x7fffffffffffffff := h.size
  rw [kCheapPrepend] at hwrap
  have hlt : b.writableBytes < len := by rw [Buffer.writableBytes]; omega
  have hsmall : addSize len kCheapPrepend < 8 := by
    rw [kCheapPrepend, addSize_of_ge hlen (by decide) hwrap]
    omega
  have hfree : ¬addSize b.writableBytes b.prependableBytes < addSize len kCheapPrepend := by
    rw [addSize_of_lt (by rw [Buffer.writableBytes, Buffer.prependableBytes]; omega),
      Buffer.writableBytes, Buffer.prependableBytes]
    omega
  rw [SizeT.ensureWritableBytes, h.writableBytes_eq, if_pos hlt, SizeT.makeSpace,
    h.writableBytes_eq, if_neg hfree, h.ordered.readableBytes_eq]
  dsimp only
  split
  · rename_i v hv
    rintro ⟨hroom, -⟩
    have hv' := length_stdCopy hv
    have hread : 8 + b.readableBytes ≤ b.writerIndex_ := by
      rw [Buffer.readableBytes]
      omega
    rw [addSize_of_lt (by rw [kCheapPrepend]; omega)] at hroom
    have hwritable : subSize v.length (kCheapPrepend + b.readableBytes) =
        v.length - (kCheapPrepend + b.readableBytes) :=
      subSize_of_le (by rw [kCheapPrepend]; omega) (by omega)
    rw [SizeT.writableBytes, hwritable] at hroom
    omega
  · exact id

/-- `writerIndex_ + len` alone wraps: the vector is cut off below `writerIndex_`. -/
theorem Sound.cuts {b : Buffer} (h : Sound b) (alloc : Bool) {len : Nat}
    (hlen : len + kCheapPrepend < 0x10000000000000000)
    (hwrap : 0x10000000000000000 ≤ b.writerIndex_ + len) :
    ∃ v, SizeT.ensureWritableBytes alloc b len = .returned () { b with buffer_ := v } ∧
      v.length < b.writerIndex_ := by
  have ho := h.wf.ordered
  have hi := h.wf.inside
  have hsize : b.buffer_.length ≤ 0x7fffffffffffffff := h.size
  rw [kCheapPrepend] at hlen
  have hlt : b.writableBytes < len := by rw [Buffer.writableBytes]; omega
  have hgrow : addSize b.writableBytes b.prependableBytes < addSize len kCheapPrepend := by
    rw [addSize_of_lt (by rw [Buffer.writableBytes, Buffer.prependableBytes]; omega),
      addSize_of_lt (by rw [kCheapPrepend]; omega), kCheapPrepend, Buffer.writableBytes,
      Buffer.prependableBytes]
    omega
  have hnew : addSize b.writerIndex_ len = b.writerIndex_ + len - 0x10000000000000000 :=
    addSize_of_ge (by omega) (by omega) hwrap
  have hshrink : vectorResize alloc b.buffer_ (addSize b.writerIndex_ len) =
      some (resize b.buffer_ (addSize b.writerIndex_ len) 0) := by
    refine if_neg fun hgrows => ?_
    rw [hnew] at hgrows
    omega
  refine ⟨resize b.buffer_ (addSize b.writerIndex_ len) 0, ?_, ?_⟩
  · rw [SizeT.ensureWritableBytes, h.writableBytes_eq, if_pos hlt, SizeT.makeSpace,
      h.writableBytes_eq, if_pos hgrow, hshrink]
  · rw [length_resize, hnew]
    omega

theorem Sound.cutsOff {b : Buffer} (h : Sound b) (alloc : Bool) {len : Nat}
    (hlen : len + kCheapPrepend < 0x10000000000000000)
    (hwrap : 0x10000000000000000 ≤ b.writerIndex_ + len) :
    ¬MakesRoom b len (SizeT.ensureWritableBytes alloc b len) := by
  obtain ⟨v, hv, hshort⟩ := h.cuts alloc hlen hwrap
  rw [hv]
  rintro ⟨-, -, -, -, hinside⟩
  exact absurd hinside (Nat.not_le.mpr hshort)

/-! ## Exactly the sums that do not wrap -/

/-- In every state that operations without a wrapping sum lead to, for every length:
`ensureWritableBytes` makes room or throws exactly where `writerIndex_ + len` fits. -/
theorem ensureWritableBytes_iff {b : Buffer} (h : Unwrapped b) (alloc : Bool) {len : Nat}
    (hlen : len < 0x10000000000000000) :
    MakesRoom b len (ensureWritableBytes alloc b len) ↔
      b.writerIndex_ + len < 0x10000000000000000 := by
  have hsound := h.sound
  constructor
  · intro hroom
    by_contra hwrap
    by_cases hsum : len + kCheapPrepend < 0x10000000000000000
    · exact hsound.cutsOff alloc hsum (by omega) hroom
    · exact hsound.compacts alloc hlen (by omega) hroom
  · intro hfits
    obtain ⟨b', hb', hsound', hcont, hroom⟩ | hthrew := hsound.ensureWritableBytes_cases alloc hfits
    · rw [hb']
      refine ⟨?_, hcont, hsound'.wf.prepend, hsound'.wf.ordered, hsound'.wf.inside⟩
      rw [hsound'.writableBytes_eq]
      exact hroom
    · rw [hthrew]
      rfl

theorem unwrapped_one : Unwrapped ⟨[0, 0, 0, 0, 0, 0, 0, 0, 1, 0], 8, 9⟩ :=
  ⟨true, 2, ⟨List.replicate 10 0, 8, 8⟩, [(.append [1], true)], by decide, by decide, by decide,
    by decide⟩

/-- A length of almost 2^64 that does not wrap: `resize` throws. -/
theorem ensureWritableBytes_iff_throws :
    MakesRoom ⟨[0, 0, 0, 0, 0, 0, 0, 0, 1, 0], 8, 9⟩ 0xfffffffffffffff6
      (ensureWritableBytes true ⟨[0, 0, 0, 0, 0, 0, 0, 0, 1, 0], 8, 9⟩ 0xfffffffffffffff6) :=
  (ensureWritableBytes_iff unwrapped_one true (by decide)).mpr (by decide)

/-- One byte more, and the vector is empty. -/
theorem ensureWritableBytes_iff_fails :
    ¬∀ b, Reachable b → ∀ alloc, ∀ len < 0x10000000000000000,
      MakesRoom b len (ensureWritableBytes alloc b len) := by
  intro h
  have hroom := h ⟨[0, 0, 0, 0, 0, 0, 0, 0, 1, 0], 8, 9⟩
    ⟨true, 2, ⟨List.replicate 10 0, 8, 8⟩, [(.append [1], true)], by decide, by decide⟩ true
    0xfffffffffffffff7 (by decide)
  have hends : ensureWritableBytes true ⟨[0, 0, 0, 0, 0, 0, 0, 0, 1, 0], 8, 9⟩
      0xfffffffffffffff7 = .returned () ⟨[], 8, 9⟩ := by decide
  rw [hends] at hroom
  exact absurd hroom.2.2.2.2 (by decide)

end Mymuduo.SizeT

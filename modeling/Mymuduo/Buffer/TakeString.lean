import Mymuduo.Buffer.MakeRoom

/-!
# What `retrieveAsString` takes

The string is built from `peek()` with the length as the caller gives it, and
`retrieve` clamps that length afterwards. The two agree exactly where the length
is that of readable bytes in the vector; beyond, the string shows what lies behind
`writerIndex_`, or the read leaves the vector.
-/

namespace Mymuduo.SizeT

open Mymuduo.Library.Window
open Mymuduo.Buffer (Op)

/-- The call returns the first `min len readableBytes()` readable bytes and removes
these, as `retrieve` does. -/
def TakesReadable (b : Buffer) (len : Nat) : Outcome (List Byte) → Prop
  | .returned s b' =>
    s = b.contents.take (min len (readableBytes b)) ∧
      b'.contents = b.contents.drop (min len (readableBytes b)) ∧ b' = retrieve b len
  | .threw _ | .outside => False

/-- No more bytes are readable than the indices say, even of a vector that ends
before `writerIndex_`. -/
theorem Ordered.length_contents {b : Buffer} (h : Ordered b) :
    b.contents.length ≤ readableBytes b := by
  rw [h.readableBytes_eq, Buffer.readableBytes, Buffer.contents, window, List.length_drop,
    List.length_take]
  omega

theorem Ordered.contents_retrieve {b : Buffer} (h : Ordered b) {len : Nat}
    (hlen : len ≤ readableBytes b) : (SizeT.retrieve b len).contents = b.contents.drop len := by
  rw [h.retrieve_eq, Buffer.retrieve]
  split
  · rw [Buffer.contents, Buffer.contents, drop_window]
  · rename_i hge
    have hall := h.length_contents
    rw [h.readableBytes_eq] at hlen hall
    rw [Buffer.contents_retrieveAll, List.drop_eq_nil_of_le (by omega)]

theorem readRange_eq_some {v xs : List Byte} {pos len : Nat} (h : readRange v pos len = some xs) :
    pos + len ≤ v.length ∧ xs = window v pos (pos + len) := by
  rw [readRange, Option.ite_none_right_eq_some, Option.some.injEq] at h
  exact ⟨h.1, h.2.symm⟩

theorem Ordered.takesReadable_iff {b : Buffer} (h : Ordered b) (len : Nat) :
    TakesReadable b len (SizeT.retrieveAsString b len) ↔
      len ≤ readableBytes b ∧ b.readerIndex_ + len ≤ b.buffer_.length := by
  have ho := h.ordered
  unfold SizeT.retrieveAsString
  constructor
  · intro htakes
    split at htakes
    · rename_i result hread
      obtain ⟨hin, rfl⟩ := readRange_eq_some hread
      refine ⟨?_, hin⟩
      -- the string has the length asked for, the readable bytes are no more than they are
      have hlen := congrArg List.length htakes.1
      rw [length_window hin, List.length_take] at hlen
      omega
    · exact htakes.elim
  · rintro ⟨hlen, hin⟩
    have hread : readRange b.buffer_ b.readerIndex_ len = some (b.contents.take len) := by
      rw [h.readableBytes_eq, Buffer.readableBytes] at hlen
      rw [readRange, if_pos hin, Buffer.contents, take_window (by omega)]
    rw [hread]
    refine ⟨?_, ?_, rfl⟩
    · rw [Nat.min_eq_left hlen]
    · rw [Nat.min_eq_left hlen]
      exact h.contents_retrieve hlen

/-- Where no sum has wrapped the readable bytes are in the vector. -/
theorem takesReadable_iff_of_unwrapped {b : Buffer} (h : Unwrapped b) (len : Nat) :
    TakesReadable b len (SizeT.retrieveAsString b len) ↔ len ≤ readableBytes b := by
  have hsound := h.sound
  have ho := hsound.wf.ordered
  have hi := hsound.wf.inside
  rw [hsound.ordered.takesReadable_iff, hsound.ordered.readableBytes_eq, Buffer.readableBytes]
  constructor
  · exact And.left
  · intro hlen
    exact ⟨hlen, by omega⟩

/-- In every state that any sequence of operations leads to, for every length. -/
theorem retrieveAsString_iff {b : Buffer} (h : Reachable b) (len : Nat) :
    TakesReadable b len (retrieveAsString b len) ↔
      len ≤ readableBytes b ∧ b.readerIndex_ + len ≤ b.buffer_.length :=
  h.ordered.takesReadable_iff len

theorem reachable_left_over :
    Reachable ⟨[0, 0, 0, 0, 0, 0, 0, 0, 3, 2, 0, 0], 8, 9⟩ :=
  ⟨true, 4, ⟨List.replicate 12 0, 8, 8⟩, [(.append [1, 2], true), (.retrieve 2, true),
    (.append [3], true)], by decide, by decide⟩

/-- One byte is taken after an earlier message has been taken. -/
theorem retrieveAsString_iff_one :
    TakesReadable ⟨[0, 0, 0, 0, 0, 0, 0, 0, 3, 2, 0, 0], 8, 9⟩ 1
      (retrieveAsString ⟨[0, 0, 0, 0, 0, 0, 0, 0, 3, 2, 0, 0], 8, 9⟩ 1) :=
  (retrieveAsString_iff reachable_left_over 1).mpr (by decide)

/-- Two bytes are asked for where one is readable: the second is of the earlier message. -/
theorem retrieveAsString_iff_fails :
    ¬∀ b, Reachable b → ∀ len < 0x10000000000000000,
      TakesReadable b len (retrieveAsString b len) := by
  intro h
  have htakes := h _ reachable_left_over 2 (by decide)
  exact absurd htakes.1 (by decide)

end Mymuduo.SizeT

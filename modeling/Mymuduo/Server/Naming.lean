import Mathlib.Algebra.Group.Nat.Defs
import Mathlib.Data.List.Basic

/-!
# Addresses as text and the names of connections

`newConnection` names a connection by the server's name and a suffix printed
into a buffer of 64 bytes. The buffer always holds the whole suffix, so that
two ids give two names.
-/

namespace Mymuduo

/-- `%d` and `%u` of a number that is not negative. -/
def decimal (n : Nat) : List Char := Nat.toDigits 10 n

/-- `snprintf` into a buffer of `size` bytes: the text, cut off before the
terminating zero. -/
def snprintf (size : Nat) (text : List Char) : List Char := text.take (size - 1)

/-- An IPv4 address, in the order of its bytes, and a port. -/
structure InetAddress where
  s_addr : UInt8 × UInt8 × UInt8 × UInt8
  sin_port : UInt16
  deriving DecidableEq

namespace InetAddress

/-- `inet_ntop`: dotted decimal. -/
def toIp (a : InetAddress) : List Char :=
  decimal a.s_addr.1.toNat ++ ['.'] ++ decimal a.s_addr.2.1.toNat ++ ['.'] ++
    decimal a.s_addr.2.2.1.toNat ++ ['.'] ++ decimal a.s_addr.2.2.2.toNat

def toIpPort (a : InetAddress) : List Char := a.toIp ++ [':'] ++ decimal a.sin_port.toNat

end InetAddress

/-- The suffix that `newConnection` prints. -/
def connSuffix (ipPort_ : List Char) (nextConnId_ : Nat) : List Char :=
  ['-'] ++ ipPort_ ++ ['#'] ++ decimal nextConnId_

def connName (name_ ipPort_ : List Char) (nextConnId_ : Nat) : List Char :=
  name_ ++ snprintf 64 (connSuffix ipPort_ nextConnId_)

theorem decimal_injective : Function.Injective decimal := by
  intro m n h
  have hread := congrArg (fun digits => Nat.ofDigitChars 10 digits 0) h
  simpa [decimal] using hread

theorem length_decimal_le {n k : Nat} (hk : 0 < k) (h : n < 10 ^ k) : (decimal n).length ≤ k :=
  (Nat.length_toDigits_le_iff (by decide) hk).mpr h

/-- At most `255.255.255.255:65535`. -/
theorem InetAddress.length_toIpPort (a : InetAddress) : a.toIpPort.length ≤ 21 := by
  have hbyte : ∀ b : UInt8, (decimal b.toNat).length ≤ 3 := fun b =>
    length_decimal_le (by decide) (by have := b.toNat_lt; omega)
  have hport : (decimal a.sin_port.toNat).length ≤ 5 :=
    length_decimal_le (by decide) (by have := a.sin_port.toNat_lt; omega)
  have h1 := hbyte a.s_addr.1
  have h2 := hbyte a.s_addr.2.1
  have h3 := hbyte a.s_addr.2.2.1
  have h4 := hbyte a.s_addr.2.2.2
  simp only [toIpPort, toIp, List.length_append, List.length_singleton]
  omega

/-- The buffer holds the whole suffix of any address and any `int` id. -/
theorem snprintf_connSuffix (a : InetAddress) {id : Nat} (hid : id < 0x80000000) :
    snprintf 64 (connSuffix a.toIpPort id) = connSuffix a.toIpPort id := by
  have ha := a.length_toIpPort
  have hd : (decimal id).length ≤ 10 := length_decimal_le (by decide) (by omega)
  refine List.take_of_length_le ?_
  simp only [connSuffix, List.length_append, List.length_singleton]
  omega

theorem connName_injective (name_ : List Char) (a : InetAddress) {i j : Nat}
    (hi : i < 0x80000000) (hj : j < 0x80000000)
    (h : connName name_ a.toIpPort i = connName name_ a.toIpPort j) : i = j := by
  rw [connName, connName, snprintf_connSuffix a hi, snprintf_connSuffix a hj] at h
  exact decimal_injective (List.append_cancel_left (List.append_cancel_left h))

end Mymuduo

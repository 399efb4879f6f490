import Mathlib.Data.List.TakeWhile
import Mymuduo.Server.Naming

/-!
# Addresses from text

The constructor reads the address with `inet_addr`: up to four numbers between dots, each written
as in C, the last one filling the bytes that are left. What `toIp` prints is read back as the same
address. So the text of an address determines it, and the name of a connection determines the
server's name, its address and the connection's number.
-/

namespace Mymuduo.InetAddress

def digitValue (c : Char) : Nat :=
  if '0' ≤ c ∧ c ≤ '9' then c.toNat - '0'.toNat
  else if 'a' ≤ c ∧ c ≤ 'f' then c.toNat - 'a'.toNat + 10
  else if 'A' ≤ c ∧ c ≤ 'F' then c.toNat - 'A'.toNat + 10
  else 16

/-- The digits at the front as a number, and what follows them. -/
def readDigits (base : Nat) : Nat → List Char → Nat × List Char
  | acc, [] => (acc, [])
  | acc, c :: text =>
    if digitValue c < base then readDigits base (base * acc + digitValue c) text
    else (acc, c :: text)

/-- `strtoul` in base 0: hexadecimal after `0x`, octal after `0`, else decimal. -/
def strtoul : List Char → Nat × List Char
  | '0' :: x :: d :: text =>
    if (x = 'x' ∨ x = 'X') ∧ digitValue d < 16 then readDigits 16 0 (d :: text)
    else readDigits 8 0 ('0' :: x :: d :: text)
  | '0' :: text => readDigits 8 0 ('0' :: text)
  | text => readDigits 10 0 text

/-- The lowest `n` bytes of a number, in network byte order. -/
def htonl : Nat → Nat → List UInt8
  | 0, _ => []
  | n + 1, val => UInt8.ofNat (val / 256 ^ n) :: htonl n val

/-- The bytes of an address, where `n` of them are still to come. -/
def inet_aton : Nat → List Char → Option (List UInt8)
  | 0, _ => none
  | n + 1, text =>
    if text.head?.any Char.isDigit then
      match strtoul text with
      | (val, '.' :: rest) =>
        if n = 0 ∨ 0xff < val then none else (inet_aton n rest).map (UInt8.ofNat val :: ·)
      | (val, rest) =>
        -- what follows a blank is not looked at
        if rest.head?.all (· ∈ [' ', '\t', '\n', '\x0b', '\x0c', '\r']) ∧ val < 256 ^ (n + 1) then
          some (htonl (n + 1) val)
        else none
    else none

/-- `INADDR_NONE` for a text that is no address. -/
def inet_addr (text : List Char) : UInt8 × UInt8 × UInt8 × UInt8 :=
  match inet_aton 4 text with
  | some [a, b, c, d] => (a, b, c, d)
  | _ => (255, 255, 255, 255)

/-- The constructor; the text is `ip.c_str()`. -/
def create (port : UInt16) (ip : List Char) : InetAddress where
  s_addr := inet_addr (ip.takeWhile (· ≠ '\x00'))
  sin_port := port

def toPort (a : InetAddress) : UInt16 := a.sin_port

/-! ## Reading what is printed -/

theorem digitValue_isDigit {c : Char} (h : c.isDigit = true) :
    digitValue c = c.toNat - '0'.toNat ∧ digitValue c < 10 := by
  have hrange : '0'.toNat ≤ c.toNat ∧ c.toNat ≤ '9'.toNat := Char.isDigit_iff_toNat.mp h
  have hval : digitValue c = c.toNat - '0'.toNat := if_pos hrange
  refine ⟨hval, ?_⟩
  rw [hval]
  have hnine : '9'.toNat = 57 := rfl
  have hzero : '0'.toNat = 48 := rfl
  omega

theorem readDigits_append {digits rest : List Char} (hdigits : ∀ c ∈ digits, c.isDigit = true)
    (hrest : ∀ c ∈ rest.head?, c = '.') (acc : Nat) :
    readDigits 10 acc (digits ++ rest) = (Nat.ofDigitChars 10 digits acc, rest) := by
  induction digits generalizing acc with
  | nil =>
    cases rest with
    | nil => rfl
    | cons c rest =>
      obtain rfl := hrest c rfl
      rfl
  | cons c digits ih =>
    obtain ⟨hval, hlt⟩ := digitValue_isDigit (hdigits c List.mem_cons_self)
    rw [List.cons_append, readDigits, if_pos hlt, hval, Nat.ofDigitChars_cons]
    exact ih (fun d hd => hdigits d (List.mem_cons_of_mem c hd)) _

/-- No leading zero, so that `strtoul` does not take the number for an octal one. -/
theorem decimal_head {n : Nat} (hn : 0 < n) : ∃ c text, decimal n = c :: text ∧ c ≠ '0' := by
  induction n using Nat.strongRecOn with
  | ind n ih =>
    rw [decimal, Nat.toDigits_eq_if (by decide)]
    split
    · rename_i hlt
      refine ⟨_, [], rfl, fun he => ?_⟩
      have hcode := Nat.toNat_digitChar_of_lt_ten hlt
      rw [he] at hcode
      have hzero : '0'.toNat = 48 := rfl
      omega
    · obtain ⟨c, text, htext, hc⟩ := ih (n / 10) (by omega) (by omega)
      refine ⟨c, text ++ [Nat.digitChar (n % 10)], ?_, hc⟩
      rw [show Nat.toDigits 10 (n / 10) = _ from htext]
      rfl

theorem isDigit_decimal (n : Nat) : ∀ c ∈ decimal n, c.isDigit = true :=
  fun _ hc => Nat.isDigit_of_mem_toDigits (by decide) (by decide) hc

theorem strtoul_decimal (n : Nat) {rest : List Char} (hrest : ∀ c ∈ rest.head?, c = '.') :
    strtoul (decimal n ++ rest) = (n, rest) := by
  rcases Nat.eq_zero_or_pos n with rfl | hn
  · rw [show decimal 0 = ['0'] from Nat.toDigits_zero 10]
    cases rest with
    | nil => rfl
    | cons c rest =>
      obtain rfl := hrest c rfl
      cases rest with
      | nil => rfl
      | cons d rest => rfl
  · have hread := readDigits_append (isDigit_decimal n) hrest 0
    obtain ⟨c, text, htext, hc⟩ := decimal_head hn
    rw [show Nat.ofDigitChars 10 (decimal n) 0 = n from Nat.ofDigitChars_ten_toDigits] at hread
    rw [← hread, htext, List.cons_append]
    unfold strtoul
    split
    · rename_i heq
      exact absurd (List.cons.inj heq).1 hc
    · rename_i heq
      exact absurd (List.cons.inj heq).1 hc
    · rfl

theorem head_decimal (n : Nat) (rest : List Char) :
    (decimal n ++ rest).head?.any Char.isDigit = true := by
  cases hd : decimal n with
  | nil => exact absurd hd Nat.toDigits_ne_nil
  | cons c text => exact isDigit_decimal n c (by rw [hd]; exact List.mem_cons_self)

/-- One number of a dotted address, and the last one. -/
theorem inet_aton_dot {n : Nat} (hn : 0 < n) (b : UInt8) (rest : List Char) :
    inet_aton (n + 1) (decimal b.toNat ++ '.' :: rest) = (inet_aton n rest).map (b :: ·) := by
  have hb := b.toNat_lt
  rw [inet_aton, if_pos (head_decimal _ _), strtoul_decimal _ (by simp)]
  show (if n = 0 ∨ 0xff < b.toNat then none else _) = _
  rw [if_neg (by omega), UInt8.ofNat_toNat]

theorem inet_aton_last (b : UInt8) : inet_aton 1 (decimal b.toNat) = some [b] := by
  have hstrtoul := strtoul_decimal b.toNat (by simp : ∀ c ∈ ([] : List Char).head?, c = '.')
  have hhead := head_decimal b.toNat []
  rw [List.append_nil] at hstrtoul hhead
  rw [inet_aton, if_pos hhead, hstrtoul]
  show (if _ ∧ b.toNat < 256 ^ 1 then some (htonl 1 b.toNat) else none) = _
  rw [if_pos ⟨rfl, b.toNat_lt⟩]
  simp [htonl]

theorem toIp_eq (a : InetAddress) : a.toIp = decimal a.s_addr.1.toNat ++ '.' ::
    (decimal a.s_addr.2.1.toNat ++ '.' :: (decimal a.s_addr.2.2.1.toNat ++ '.' ::
      decimal a.s_addr.2.2.2.toNat)) := by
  simp [toIp]

theorem inet_addr_toIp (a : InetAddress) : inet_addr a.toIp = a.s_addr := by
  rw [inet_addr, toIp_eq, inet_aton_dot (by decide), inet_aton_dot (by decide),
    inet_aton_dot (by decide), inet_aton_last]
  rfl

theorem mem_toIp {a : InetAddress} {c : Char} (hc : c ∈ a.toIp) : c.isDigit = true ∨ c = '.' := by
  have hdigit := fun n => isDigit_decimal n c
  simp only [toIp, List.mem_append, List.mem_singleton] at hc
  rcases hc with (((((h | h) | h) | h) | h) | h) | h
  · exact .inl (hdigit _ h)
  · exact .inr h
  · exact .inl (hdigit _ h)
  · exact .inr h
  · exact .inl (hdigit _ h)
  · exact .inr h
  · exact .inl (hdigit _ h)

theorem not_mem_toIp {a : InetAddress} {c : Char} (hdigit : c.isDigit = false) (hdot : c ≠ '.') :
    c ∉ a.toIp := by
  intro hc
  rcases mem_toIp hc with h | h
  · rw [hdigit] at h
    cases h
  · exact hdot h

theorem not_mem_decimal {n : Nat} {c : Char} (hdigit : c.isDigit = false) : c ∉ decimal n := by
  intro hc
  rw [isDigit_decimal n c hc] at hdigit
  cases hdigit

theorem not_mem_toIpPort {a : InetAddress} {c : Char} (hdigit : c.isDigit = false) (hdot : c ≠ '.')
    (hcolon : c ≠ ':') : c ∉ a.toIpPort := by
  intro hc
  rcases List.mem_append.mp hc with h | h
  · rcases List.mem_append.mp h with h | h
    · exact not_mem_toIp hdigit hdot h
    · exact hcolon (List.mem_singleton.mp h)
  · exact not_mem_decimal hdigit h

theorem create_toIp (port : UInt16) (a : InetAddress) :
    create port a.toIp = { a with sin_port := port } := by
  have htext : a.toIp.takeWhile (· ≠ '\x00') = a.toIp := by
    rw [List.takeWhile_eq_self_iff]
    intro c hc
    have hne : c ≠ '\x00' := by
      rintro rfl
      exact not_mem_toIp (by decide) (by decide) hc
    exact decide_eq_true hne
  rw [create, htext, inet_addr_toIp]

theorem toIpPort_injective : Function.Injective toIpPort := by
  intro a b h
  simp only [toIpPort, List.append_assoc, List.singleton_append] at h
  obtain ⟨hip, -, hport⟩ := (List.append_cons_inj_of_notMem
    (not_mem_toIp (by decide) (by decide)) (not_mem_decimal (by decide))).mp h
  have haddr : a.s_addr = b.s_addr := by
    rw [← inet_addr_toIp a, ← inet_addr_toIp b, hip]
  have hsame : a.sin_port = b.sin_port := UInt16.toNat_inj.mp (decimal_injective hport)
  cases a
  cases b
  cases haddr
  cases hsame
  rfl

/-- The text of an address is read back as that address; a text stays the same through an address
only if it is the text of one; and address and port can be read off `toIpPort`. -/
theorem text_round_trip :
    (∀ a : InetAddress, create a.toPort a.toIp = a) ∧
    (∀ port ip, (create port ip).toIp = ip ↔ ∃ a : InetAddress, a.toIp = ip) ∧
    Function.Injective toIpPort := by
  refine ⟨fun a => create_toIp _ a, fun port ip => ?_, toIpPort_injective⟩
  constructor
  · intro h
    exact ⟨_, h⟩
  · rintro ⟨a, rfl⟩
    rw [create_toIp]
    rfl

/-! ## Names of connections -/

theorem append_cons_inj {c : Char} {front front' back back' : List Char} (hback : c ∉ back)
    (hback' : c ∉ back') (h : front ++ c :: back = front' ++ c :: back') :
    front = front' ∧ back = back' := by
  have hlast : ∀ front back : List Char, c ∉ back →
      (front ++ c :: back).reverse.takeWhile (· ≠ c) = back.reverse := by
    intro front back hnot
    rw [List.reverse_append, List.reverse_cons, List.append_assoc, List.takeWhile_append_of_pos]
    · simp
    · intro d hd
      have hne : d ≠ c := by
        rintro rfl
        exact hnot (List.mem_reverse.mp hd)
      exact decide_eq_true hne
  have hsame : back = back' := by
    rw [← List.reverse_inj, ← hlast front back hback, ← hlast front' back' hback', h]
  subst hsame
  exact ⟨List.append_cancel_right h, rfl⟩

/-- Two connections of one name belong to servers of one name and address, and have one number. -/
theorem connName_determines {name_ name_' : List Char} {a b : InetAddress} {i j : Nat}
    (hi : i < 0x80000000) (hj : j < 0x80000000)
    (h : connName name_ a.toIpPort i = connName name_' b.toIpPort j) :
    name_ = name_' ∧ a = b ∧ i = j := by
  rw [connName, connName, snprintf_connSuffix a hi, snprintf_connSuffix b hj] at h
  simp only [connSuffix, List.append_assoc, List.singleton_append] at h
  have hnone : ∀ (a : InetAddress) (i : Nat), '-' ∉ a.toIpPort ++ '#' :: decimal i := by
    intro a i hmem
    rcases List.mem_append.mp hmem with h | h
    · exact not_mem_toIpPort (by decide) (by decide) (by decide) h
    · rcases List.mem_cons.mp h with he | h
      · exact absurd he (by decide)
      · exact not_mem_decimal (by decide) h
  obtain ⟨hname, hsuffix⟩ := append_cons_inj (hnone a i) (hnone b j) h
  obtain ⟨haddr, hid⟩ := append_cons_inj (not_mem_decimal (by decide))
    (not_mem_decimal (by decide)) hsuffix
  exact ⟨hname, toIpPort_injective haddr, decimal_injective hid⟩

/-- Two ways to write the address of one server. -/
theorem connName_determines_hex :
    connName "echo".toList (create 8000 "127.0.0.1".toList).toIpPort 3 =
      "echo-127.0.0.1:8000#3".toList ∧
    "echo".toList = "echo".toList ∧
      create 8000 "127.0.0.1".toList = create 8000 "0x7f.1 # lo".toList ∧ 3 = 3 :=
  ⟨by decide +kernel, connName_determines (by decide) (by decide) (by decide +kernel)⟩

end Mymuduo.InetAddress

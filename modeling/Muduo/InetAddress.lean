import Muduo.Library.Text
import Mathlib.Data.List.Basic

open text

namespace muduo.inet_address

/-- The two fields of a `sockaddr_in` that the code reads, as the kernel stores them:
in network byte order, on a little-endian machine. -/
structure SockaddrIn where
  sin_port : BitVec 16
  s_addr : BitVec 32
  deriving DecidableEq

structure InetAddress where
  addr_ : SockaddrIn
  deriving DecidableEq

/-- The two bytes exchanged. -/
def ntohs (netshort : BitVec 16) : BitVec 16 := netshort.extractLsb' 0 8 ++ netshort.extractLsb' 8 8

/-- The same exchange the other way. -/
def htons (hostshort : BitVec 16) : BitVec 16 := ntohs hostshort

/-- The byte of an address at an offset in memory, as a decimal number. -/
def octet (s_addr : BitVec 32) (offset : Nat) : List Char := decimal (s_addr.extractLsb' (8 * offset) 8).toNat

/-- What `inet_ntop` writes for an address of the family `AF_INET`. -/
def inet_ntop (s_addr : BitVec 32) : List Char :=
  octet s_addr 0 ++ '.' :: (octet s_addr 1 ++ '.' :: (octet s_addr 2 ++ '.' :: octet s_addr 3)) ++ [NUL]

def isSpace (c : Char) : Bool := c ∈ [' ', '\t', '\n', Char.ofNat 11, Char.ofNat 12, '\r']

/-- The bytes of a number from the highest on, as they stand in network byte order. -/
def networkBytes (count val : Nat) : List (BitVec 8) :=
  (List.range count).reverse.map fun i => BitVec.ofNat 8 (val / 256 ^ i)

/-- The parts of the text of an address from one on, behind which there is room for more
parts. Each part but the last makes a byte, and the last one fills what is left. -/
def inet_aton : Nat → List Char → Option (List (BitVec 8))
  | 0, cp =>
    if cp.head?.any Char.isDigit = true ∧ (strtoul cp).2.head?.all isSpace = true ∧ (strtoul cp).1 < 256 then
      some (networkBytes 1 (strtoul cp).1)
    else none
  | room + 1, cp =>
    if cp.head?.any Char.isDigit then
      match strtoul cp with
      | (val, '.' :: rest) =>
        if val < 256 then (inet_aton room rest).map (BitVec.ofNat 8 val :: ·) else none
      | (val, rest) =>
        if rest.head?.all isSpace = true ∧ val < 256 ^ (room + 2) then some (networkBytes (room + 2) val) else none
    else none

/-- What `inet_addr` answers for a text that is no address. -/
def INADDR_NONE : BitVec 32 := 0xFFFFFFFF

def inet_addr (cp : List Char) : BitVec 32 :=
  match inet_aton 3 cp with
  | some [byte₀, byte₁, byte₂, byte₃] => byte₃ ++ byte₂ ++ byte₁ ++ byte₀
  | _ => INADDR_NONE

namespace InetAddress

/-- The constructor, which does not look at what `inet_addr` answers. -/
def construct (port : BitVec 16) (ip : List Char) : InetAddress where
  addr_ := { sin_port := htons port, s_addr := inet_addr (cString ip) }

def toPort (a : InetAddress) : BitVec 16 := ntohs a.addr_.sin_port

def toIp (a : InetAddress) : List Char := cString (inet_ntop a.addr_.s_addr)

/-- `sprintf` goes on where the text of the address ends in the buffer. -/
def toIpPort (a : InetAddress) : List Char :=
  let buf := inet_ntop a.addr_.s_addr
  cString (cString buf ++ ':' :: decimal (ntohs a.addr_.sin_port).toNat ++ [NUL])

/-- 127.0.0.1:8080. -/
def loopback : InetAddress where
  addr_ := { sin_port := 0x901F, s_addr := 0x0100007F }

end InetAddress

theorem plain_octet (s_addr : BitVec 32) (offset : Nat) : Plain (octet s_addr offset) := plain_decimal _

theorem length_octet_le (s_addr : BitVec 32) (offset : Nat) : (octet s_addr offset).length ≤ 3 := by
  have hbyte := (s_addr.extractLsb' (8 * offset) 8).isLt
  exact length_decimal_le (by omega) (by omega)

/-- A dot between two texts. -/
theorem Plain.dot {front back : List Char} (hfront : Plain front) (hback : Plain back) :
    Plain (front ++ '.' :: back) := hfront.append (hback.cons (by decide))

/-- `inet_ntop` writes text, 15 characters and the NUL at most. -/
theorem inet_ntop_eq (s_addr : BitVec 32) :
    ∃ ip, inet_ntop s_addr = ip ++ [NUL] ∧ Plain ip ∧ ip.length ≤ 15 := by
  refine ⟨_, rfl, ?_, ?_⟩
  · have hlast := Plain.dot (plain_octet s_addr 2) (plain_octet s_addr 3)
    have hmiddle := Plain.dot (plain_octet s_addr 1) hlast
    exact Plain.dot (plain_octet s_addr 0) hmiddle
  · have h₀ := length_octet_le s_addr 0
    have h₁ := length_octet_le s_addr 1
    have h₂ := length_octet_le s_addr 2
    have h₃ := length_octet_le s_addr 3
    simp only [List.length_append, List.length_cons]
    omega

theorem toIp_bounded (a : InetAddress) : Plain a.toIp ∧ a.toIp.length ≤ 15 := by
  obtain ⟨ip, hip, hplain, hlength⟩ := inet_ntop_eq a.addr_.s_addr
  rw [InetAddress.toIp, hip, cString_append_NUL hplain]
  exact ⟨hplain, hlength⟩

/-- The text of an address is the text of its IP address, a colon and the port. -/
theorem toIpPort_eq (a : InetAddress) : a.toIpPort = a.toIp ++ ':' :: decimal a.toPort.toNat := by
  have hplain := (toIp_bounded a).1.append ((plain_decimal a.toPort.toNat).cons (c := ':') (by decide))
  exact cString_append_NUL hplain

example : InetAddress.loopback.toIpPort = "127.0.0.1:8080".toList := by decide

/-- The text of an address fits into the buffer of 64 characters. -/
theorem toIpPort_bounded (a : InetAddress) : Plain a.toIpPort ∧ a.toIpPort.length ≤ 21 := by
  obtain ⟨hplain, hlength⟩ := toIp_bounded a
  have hport := a.toPort.isLt
  have hdigits : (decimal a.toPort.toNat).length ≤ 5 := length_decimal_le (by omega) (by omega)
  rw [toIpPort_eq]
  refine ⟨hplain.append ((plain_decimal _).cons (by decide)), ?_⟩
  simp only [List.length_append, List.length_cons]
  omega

theorem ntohs_htons (port : BitVec 16) : ntohs (htons port) = port := by
  unfold htons ntohs
  rw [BitVec.extractLsb'_append_eq_right, BitVec.extractLsb'_append_eq_left]
  exact BitVec.extractLsb'_append_extractLsb'

/-- A word consists of its bytes. -/
theorem append_bytes (s_addr : BitVec 32) :
    s_addr.extractLsb' 24 8 ++ s_addr.extractLsb' 16 8 ++ s_addr.extractLsb' 8 8 ++ s_addr.extractLsb' 0 8 =
      s_addr := by
  have hfirst : s_addr.extractLsb' 24 8 ++ s_addr.extractLsb' 16 8 = s_addr.extractLsb' 16 16 :=
    BitVec.extractLsb'_append_extractLsb'_eq_extractLsb' rfl
  have hsecond : s_addr.extractLsb' 16 16 ++ s_addr.extractLsb' 8 8 = s_addr.extractLsb' 8 24 :=
    BitVec.extractLsb'_append_extractLsb'_eq_extractLsb' rfl
  have hthird : s_addr.extractLsb' 8 24 ++ s_addr.extractLsb' 0 8 = s_addr.extractLsb' 0 32 :=
    BitVec.extractLsb'_append_extractLsb'_eq_extractLsb' rfl
  rw [hfirst, hsecond, hthird]
  exact BitVec.extractLsb'_eq_self

/-- The text of a byte begins with a digit. -/
theorem head_octet (s_addr : BitVec 32) (offset : Nat) (rest : List Char) :
    (octet s_addr offset ++ rest).head?.any Char.isDigit = true := by
  unfold octet
  obtain ⟨c, digits, hdigits⟩ := List.exists_cons_of_ne_nil
    (Nat.toDigits_ne_nil : Nat.toDigits 10 (s_addr.extractLsb' (8 * offset) 8).toNat ≠ [])
  rw [decimal, hdigits]
  exact isDigit_of_mem_decimal (hdigits ▸ List.mem_cons_self)

/-- A part with a dot behind it is read as its byte. -/
theorem inet_aton_dot (s_addr : BitVec 32) (offset room : Nat) (rest : List Char) :
    inet_aton (room + 1) (octet s_addr offset ++ '.' :: rest) =
      (inet_aton room rest).map (s_addr.extractLsb' (8 * offset) 8 :: ·) := by
  have hread : strtoul (octet s_addr offset ++ '.' :: rest) =
      ((s_addr.extractLsb' (8 * offset) 8).toNat, '.' :: rest) :=
    strtoul_decimal fun c hc => by
      obtain rfl := Option.some.inj hc
      decide
  rw [inet_aton, if_pos (head_octet s_addr offset _), hread]
  change (if _ then _ else _) = _
  rw [if_pos (s_addr.extractLsb' (8 * offset) 8).isLt, BitVec.ofNat_toNat, BitVec.setWidth_eq]

/-- The last part is read as the last byte. -/
theorem inet_aton_last (s_addr : BitVec 32) (offset : Nat) :
    inet_aton 0 (octet s_addr offset) = some [s_addr.extractLsb' (8 * offset) 8] := by
  have hread : strtoul (octet s_addr offset) = ((s_addr.extractLsb' (8 * offset) 8).toNat, []) := by
    have hdecimal : strtoul (octet s_addr offset ++ []) = ((s_addr.extractLsb' (8 * offset) 8).toNat, []) :=
      strtoul_decimal (by simp)
    rwa [List.append_nil] at hdecimal
  have hhead := head_octet s_addr offset []
  rw [List.append_nil] at hhead
  have hbyte := (s_addr.extractLsb' (8 * offset) 8).isLt
  have hlast (byte : BitVec 8) : networkBytes 1 byte.toNat = [byte] := by simp [networkBytes]
  rw [inet_aton, hread, if_pos ⟨hhead, rfl, hbyte⟩, hlast]

theorem cString_inet_ntop (s_addr : BitVec 32) : cString (inet_ntop s_addr) =
    octet s_addr 0 ++ '.' :: (octet s_addr 1 ++ '.' :: (octet s_addr 2 ++ '.' :: octet s_addr 3)) := by
  obtain ⟨ip, hip, hplain, _⟩ := inet_ntop_eq s_addr
  rw [hip, cString_append_NUL hplain]
  exact (List.append_cancel_right hip).symm

/-- `inet_addr` reads back what `inet_ntop` writes. -/
theorem inet_addr_inet_ntop (s_addr : BitVec 32) : inet_addr (cString (inet_ntop s_addr)) = s_addr := by
  rw [inet_addr, cString_inet_ntop, inet_aton_dot, inet_aton_dot, inet_aton_dot, inet_aton_last]
  exact append_bytes s_addr

theorem colon_notMem_decimal (n : Nat) : ':' ∉ decimal n := fun hmem =>
  absurd (isDigit_of_mem_decimal hmem) (by decide)

/-- The text of an IP address has no colon. -/
theorem colon_notMem_toIp (a : InetAddress) : ':' ∉ a.toIp := by
  rw [InetAddress.toIp, cString_inet_ntop]
  simp [octet, colon_notMem_decimal]

/-- Addresses survive being written and read. The port and the IP text of an address make
that address again, whatever text is given for the IP address the port is kept, and two
addresses with one text are the same. -/
theorem address_texts_round_trip (a b : InetAddress) (port : BitVec 16) (ip : List Char) :
    InetAddress.construct a.toPort a.toIp = a ∧ (InetAddress.construct port ip).toPort = port ∧
    (a.toIpPort = b.toIpPort → a = b) := by
  have hround (a : InetAddress) : InetAddress.construct a.toPort a.toIp = a := by
    have hport : htons a.toPort = a.addr_.sin_port := ntohs_htons a.addr_.sin_port
    have hip : inet_addr (cString a.toIp) = a.addr_.s_addr := by
      rw [cString_eq (toIp_bounded a).1]
      exact inet_addr_inet_ntop a.addr_.s_addr
    rw [InetAddress.construct, hport, hip]
  refine ⟨hround a, ntohs_htons port, fun hsame => ?_⟩
  rw [toIpPort_eq, toIpPort_eq] at hsame
  obtain ⟨hip, _, hnumber⟩ :=
    (List.append_cons_inj_of_notMem (colon_notMem_toIp a) (colon_notMem_decimal _)).mp hsame
  have hport : a.toPort = b.toPort := BitVec.eq_of_toNat_eq (decimal_injective hnumber)
  rw [← hround a, ← hround b, hport, hip]

example : InetAddress.construct 8080 "127.0.0.1".toList = .loopback := by decide

example : InetAddress.construct 80 "0x7f.1 ".toList = { addr_ := ⟨0x5000, 0x0100007F⟩ } := by decide

end muduo.inet_address

import Muduo.InetAddress
import Muduo.TcpServer.Work

open transition text
open muduo.inet_address

namespace muduo.tcp_server

/-- The name that `newConnection` makes from a server's name, the text of its listen
address and the number of the connection. -/
def connName (name_ ipPort_ : List Char) (nextConnId_ : BitVec 32) : List Char :=
  let buf := snprintf 64 ('-' :: cString ipPort_ ++ '#' :: decimalInt nextConnId_.toInt)
  name_ ++ cString buf

/-- The buffer of 64 characters holds the whole text: of a dash, 21 characters for the
address, a number sign and 11 characters for the number. -/
theorem connName_eq (name_ : List Char) (listenAddr : InetAddress) (id : BitVec 32) :
    connName name_ listenAddr.toIpPort id =
      name_ ++ ('-' :: listenAddr.toIpPort ++ '#' :: decimalInt id.toInt) := by
  obtain ⟨hplain, hlength⟩ := toIpPort_bounded listenAddr
  have hnumber : (decimalInt id.toInt).length ≤ 11 := by
    have hlow := id.le_toInt
    have hhigh := id.toInt_lt
    exact length_decimalInt_le (k := 10) (by omega) (by omega)
  have hback : Plain ('#' :: decimalInt id.toInt) := (plain_decimalInt _).cons (by decide)
  have hformatted : Plain ('-' :: listenAddr.toIpPort ++ '#' :: decimalInt id.toInt) :=
    (hplain.cons (by decide)).append hback
  rw [connName, cString_eq hplain, cString_snprintf hformatted]
  simp only [List.cons_append, List.length_append, List.length_cons]
  omega

/-- Different numbers make different names. -/
theorem connName_injective (name_ : List Char) (listenAddr : InetAddress) :
    Function.Injective (connName name_ listenAddr.toIpPort) := by
  intro i j heq
  rw [connName_eq, connName_eq] at heq
  have hformatted := List.append_cancel_left heq
  have hnumber := List.append_cancel_left hformatted
  exact BitVec.eq_of_toInt_eq (decimalInt_injective (List.cons.inj hnumber).2)

/-- What a server knows of names, with the connections that it has accepted: they are
counted from 0 in their order, `name` holds the `name()` of each, and `present` says
whether it has been accepted and not been removed. -/
structure Registry where
  ipPort_ : List Char
  name_ : List Char
  nextConnId_ : BitVec 32
  connections_ : List Char → Option Nat
  accepted : Nat
  name : Nat → List Char
  present : Nat → Bool

inductive Call where
  | newConnection
  | removeConnectionInLoop (conn : Nat)
  deriving DecidableEq

namespace Registry

def construct (listenAddr : InetAddress) (nameArg : List Char) : Registry where
  ipPort_ := listenAddr.toIpPort
  name_ := nameArg
  nextConnId_ := 1
  connections_ := fun _ => none
  accepted := 0
  name := fun _ => []
  present := fun _ => false

def newConnection (s : Registry) : Registry :=
  let connName := connName s.name_ s.ipPort_ s.nextConnId_
  let conn := s.accepted
  { s with
    nextConnId_ := s.nextConnId_ + 1
    connections_ := Function.update s.connections_ connName (some conn)
    accepted := s.accepted + 1
    name := Function.update s.name conn connName
    present := Function.update s.present conn true }

def removeConnectionInLoop (s : Registry) (conn : Nat) : Registry :=
  { s with
    connections_ := Function.update s.connections_ (s.name conn) none
    present := Function.update s.present conn false }

/-- A connection that is removed has been accepted. -/
def step (s : Registry) : Call → Option Registry
  | .newConnection => some s.newConnection
  | .removeConnectionInLoop conn => if conn < s.accepted then some (s.removeConnectionInLoop conn) else none

/-- Connections that are present have different names, and `connections_` holds
exactly those that are present, each under its own. -/
structure Identified (s : Registry) : Prop where
  distinct : ∀ conn other, s.present conn = true → s.present other = true →
    s.name conn = s.name other → conn = other
  exact : ∀ connName conn, s.connections_ connName = some conn ↔
    s.present conn = true ∧ s.name conn = connName

/-- What a call does with the entries: `newConnection` overwrites none, and
`removeConnectionInLoop` erases that of its connection and no other. -/
def EntriesKept (s t : Registry) : Call → Prop
  | .newConnection => ∀ connName conn, s.connections_ connName = some conn → t.connections_ connName = some conn
  | .removeConnectionInLoop conn => ∀ connName other,
    t.connections_ connName = some other ↔ s.connections_ connName = some other ∧ other ≠ conn

/-- The count of no connection that is present agrees modulo 2^32 with that of the one
that a call adds, or removes for a second time. -/
def NumbersFree (s : Registry) : Call → Prop
  | .newConnection => ∀ conn < s.accepted, s.present conn = true → conn % 2 ^ 32 ≠ s.accepted % 2 ^ 32
  | .removeConnectionInLoop conn => s.present conn = false →
    ∀ other < s.accepted, s.present other = true → other % 2 ^ 32 ≠ conn % 2 ^ 32

instance (s : Registry) : ∀ call, Decidable (s.NumbersFree call)
  | .newConnection => inferInstanceAs (Decidable (∀ _ < _, _))
  | .removeConnectionInLoop _ => inferInstanceAs (Decidable (_ → _))

end Registry

def registry : Machine Registry Call where
  step := Registry.step

/-- What a call can do. -/
theorem Registry.step_cases {s t : Registry} {call : Call} (hstep : registry.step s call = some t) :
    (call = .newConnection ∧ t = s.newConnection) ∨
    ∃ removed, removed < s.accepted ∧ call = .removeConnectionInLoop removed ∧
      t = s.removeConnectionInLoop removed := by
  cases call with
  | newConnection => exact Or.inl ⟨rfl, (Option.some.inj hstep).symm⟩
  | removeConnectionInLoop removed =>
    obtain ⟨haccepted, hremove⟩ : removed < s.accepted ∧ s.removeConnectionInLoop removed = t := by
      simpa [registry, Registry.step] using hstep
    exact Or.inr ⟨removed, haccepted, rfl, hremove.symm⟩

/-- The number that the connection accepted after `conn` others gets. -/
def number (conn : Nat) : BitVec 32 := BitVec.ofNat 32 (conn + 1)

theorem number_succ (conn : Nat) : number conn + 1 = number (conn + 1) :=
  (BitVec.ofNat_add (conn + 1) 1).symm

theorem number_eq_iff (conn other : Nat) : number conn = number other ↔ conn % 2 ^ 32 = other % 2 ^ 32 := by
  rw [number, number, ← BitVec.toNat_inj, BitVec.toNat_ofNat, BitVec.toNat_ofNat]
  omega

/-- The counter runs through the numbers, each connection has the name made from its
own, and names identify connections. -/
structure Numbered (listenAddr : InetAddress) (s : Registry) : Prop where
  ipPort_ : s.ipPort_ = listenAddr.toIpPort
  nextConnId_ : s.nextConnId_ = number s.accepted
  name : ∀ conn < s.accepted, s.name conn = connName s.name_ s.ipPort_ (number conn)
  present_lt : ∀ conn, s.present conn = true → conn < s.accepted
  identified : s.Identified

theorem Numbered.construct (listenAddr : InetAddress) (nameArg : List Char) :
    Numbered listenAddr (.construct listenAddr nameArg) where
  ipPort_ := rfl
  nextConnId_ := rfl
  name := by simp [Registry.construct]
  present_lt := by simp [Registry.construct]
  identified := ⟨by simp [Registry.construct], by simp [Registry.construct]⟩

namespace Numbered

variable {listenAddr : InetAddress} {s : Registry}

/-- Two names are equal when 2^32 connections, or a multiple, lie between the two. -/
theorem name_eq_iff (hs : Numbered listenAddr s) {conn : Nat} (hconn : conn < s.accepted) (other : Nat) :
    s.name conn = connName s.name_ s.ipPort_ (number other) ↔ conn % 2 ^ 32 = other % 2 ^ 32 := by
  rw [hs.name conn hconn, hs.ipPort_, (connName_injective s.name_ listenAddr).eq_iff, number_eq_iff]

/-- A name whose number is free belongs to no connection that is present. -/
theorem fresh (hs : Numbered listenAddr s) (hfree : s.NumbersFree .newConnection) {conn : Nat}
    (hpresent : s.present conn = true) : s.name conn ≠ connName s.name_ s.ipPort_ s.nextConnId_ := by
  have hconn := hs.present_lt conn hpresent
  rw [hs.nextConnId_, Ne, hs.name_eq_iff hconn]
  exact hfree conn hconn hpresent

theorem present_newConnection (conn : Nat) :
    s.newConnection.present conn = true ↔ conn = s.accepted ∨ s.present conn = true := by
  by_cases hconn : conn = s.accepted <;> simp [Registry.newConnection, hconn]

theorem present_removeConnectionInLoop (removed conn : Nat) :
    (s.removeConnectionInLoop removed).present conn = true ↔ conn ≠ removed ∧ s.present conn = true := by
  by_cases hconn : conn = removed <;> simp [Registry.removeConnectionInLoop, hconn]

theorem name_accepted : s.newConnection.name s.accepted = connName s.name_ s.ipPort_ s.nextConnId_ :=
  Function.update_self _ _ _

/-- The name of an earlier connection stays. -/
theorem name_newConnection {conn : Nat} (hconn : conn ≠ s.accepted) : s.newConnection.name conn = s.name conn :=
  Function.update_of_ne hconn _ _

end Numbered

/-- Connections that `connections_` holds under their names have different names. -/
theorem Registry.Identified.of_exact {s : Registry}
    (hexact : ∀ connName conn, s.connections_ connName = some conn ↔ s.present conn = true ∧ s.name conn = connName) :
    s.Identified where
  distinct := by
    intro conn other hconn hother hname
    have hentry := (hexact _ conn).mpr ⟨hconn, hname⟩
    have hentry' := (hexact _ other).mpr ⟨hother, rfl⟩
    exact Option.some.inj (hentry.symm.trans hentry')
  exact := hexact

namespace Numbered

variable {listenAddr : InetAddress} {s : Registry}

/-- A new connection under a free name gets an entry of its own. -/
theorem exact_newConnection (hs : Numbered listenAddr s) (hfree : s.NumbersFree .newConnection)
    (key : List Char) (conn : Nat) : s.newConnection.connections_ key = some conn ↔
      s.newConnection.present conn = true ∧ s.newConnection.name conn = key := by
  have hexact := hs.identified.exact key conn
  rw [present_newConnection]
  by_cases hconn : conn = s.accepted
  · -- no earlier entry leads to the new connection
    subst hconn
    have hold : s.connections_ key ≠ some s.accepted := by
      intro hentry
      exact absurd (hs.present_lt _ (hexact.mp hentry).1) (Nat.lt_irrefl _)
    by_cases hkey : key = connName s.name_ s.ipPort_ s.nextConnId_
    · simp [Registry.newConnection, hkey]
    · simpa [Registry.newConnection, hkey, Ne.symm hkey] using hold
  · rw [name_newConnection hconn]
    by_cases hkey : key = connName s.name_ s.ipPort_ s.nextConnId_
    · -- the new entry is under a name that no earlier connection has
      subst hkey
      have hother : ¬ (s.present conn = true ∧ s.name conn = connName s.name_ s.ipPort_ s.nextConnId_) :=
        fun h => hs.fresh hfree h.1 h.2
      simpa [Registry.newConnection, hconn, Ne.symm hconn] using hother
    · simpa [Registry.newConnection, hconn, hkey] using hexact

theorem newConnection (hs : Numbered listenAddr s) (hfree : s.NumbersFree .newConnection) :
    Numbered listenAddr s.newConnection where
  ipPort_ := hs.ipPort_
  nextConnId_ := by
    change s.nextConnId_ + 1 = number (s.accepted + 1)
    rw [hs.nextConnId_, number_succ]
  name := by
    intro conn hconn
    by_cases hlast : conn = s.accepted
    · subst hlast
      change Function.update s.name s.accepted _ s.accepted = _
      rw [Function.update_self, hs.nextConnId_]
      rfl
    · rw [name_newConnection hlast]
      have hearlier : conn < s.accepted := Nat.lt_of_le_of_ne (Nat.lt_succ_iff.mp hconn) hlast
      exact hs.name conn hearlier
  present_lt := by
    intro conn hpresent
    change conn < s.accepted + 1
    rcases present_newConnection conn |>.mp hpresent with hlast | hearlier
    · omega
    · have hconn := hs.present_lt conn hearlier
      omega
  identified := .of_exact (hs.exact_newConnection hfree)

/-- Where a connection is removed, no other one that is present has its name. -/
theorem alone (hs : Numbered listenAddr s) {removed : Nat} (haccepted : removed < s.accepted)
    (hfree : s.NumbersFree (.removeConnectionInLoop removed)) {conn : Nat} (hpresent : s.present conn = true)
    (hname : s.name conn = s.name removed) : conn = removed := by
  cases hremoved : s.present removed with
  | true => exact hs.identified.distinct conn removed hpresent hremoved hname
  | false =>
    have hconn := hs.present_lt conn hpresent
    rw [hs.name removed haccepted, hs.name_eq_iff hconn] at hname
    exact absurd hname (hfree hremoved conn hconn hpresent)

theorem exact_removeConnectionInLoop (hs : Numbered listenAddr s) {removed : Nat}
    (haccepted : removed < s.accepted) (hfree : s.NumbersFree (.removeConnectionInLoop removed))
    (key : List Char) (conn : Nat) : (s.removeConnectionInLoop removed).connections_ key = some conn ↔
      (s.removeConnectionInLoop removed).present conn = true ∧ s.name conn = key := by
  have hexact := hs.identified.exact key conn
  rw [present_removeConnectionInLoop]
  by_cases hkey : key = s.name removed
  · subst hkey
    have hgone : ¬ ((conn ≠ removed ∧ s.present conn = true) ∧ s.name conn = s.name removed) := by
      rintro ⟨⟨hne, hpresent⟩, hname⟩
      exact hne (hs.alone haccepted hfree hpresent hname)
    have herased : (s.removeConnectionInLoop removed).connections_ (s.name removed) = none :=
      Function.update_self _ _ _
    rw [herased]
    exact iff_of_false nofun hgone
  · have hkept : (s.removeConnectionInLoop removed).connections_ key = s.connections_ key :=
      Function.update_of_ne hkey _ _
    rw [hkept, hexact]
    constructor
    · rintro ⟨hpresent, hname⟩
      refine ⟨⟨?_, hpresent⟩, hname⟩
      rintro rfl
      exact hkey hname.symm
    · rintro ⟨⟨-, hpresent⟩, hname⟩
      exact ⟨hpresent, hname⟩

theorem removeConnectionInLoop (hs : Numbered listenAddr s) {removed : Nat} (haccepted : removed < s.accepted)
    (hfree : s.NumbersFree (.removeConnectionInLoop removed)) :
    Numbered listenAddr (s.removeConnectionInLoop removed) where
  ipPort_ := hs.ipPort_
  nextConnId_ := hs.nextConnId_
  name := hs.name
  present_lt := by
    intro conn hpresent
    exact hs.present_lt conn (present_removeConnectionInLoop removed conn |>.mp hpresent).2
  identified := .of_exact (hs.exact_removeConnectionInLoop haccepted hfree)

/-- A call whose numbers are free keeps the names in order. -/
theorem step (hs : Numbered listenAddr s) {call : Call} {t : Registry} (hfree : s.NumbersFree call)
    (hstep : registry.step s call = some t) : Numbered listenAddr t := by
  obtain ⟨rfl, rfl⟩ | ⟨removed, haccepted, rfl, rfl⟩ := Registry.step_cases hstep
  · exact hs.newConnection hfree
  · exact hs.removeConnectionInLoop haccepted hfree

/-- A new connection under a number in use shares its name with a connection that is present. -/
theorem newConnection_clash (hs : Numbered listenAddr s) (hused : ¬ s.NumbersFree .newConnection) :
    ¬ s.newConnection.Identified := by
  intro ht
  refine hused fun conn hconn hpresent hnumber => ?_
  have hearlier : conn ≠ s.accepted := by omega
  have hname : s.newConnection.name conn = s.newConnection.name s.accepted := by
    rw [name_newConnection hearlier, (hs.name_eq_iff hconn s.accepted).mpr hnumber, ← hs.nextConnId_, name_accepted]
  have hpresent' := (present_newConnection conn).mpr (Or.inr hpresent)
  have hlast := (present_newConnection s.accepted).mpr (Or.inl rfl)
  exact hearlier (ht.distinct conn s.accepted hpresent' hlast hname)

/-- A connection that is removed again takes the entry of another one along. -/
theorem removeConnectionInLoop_clash (hs : Numbered listenAddr s) {removed : Nat} (haccepted : removed < s.accepted)
    (hused : ¬ s.NumbersFree (.removeConnectionInLoop removed)) :
    ¬ (s.removeConnectionInLoop removed).Identified := by
  intro ht
  refine hused fun hremoved conn hconn hpresent hnumber => ?_
  have hne : conn ≠ removed := by
    rintro rfl
    rw [hpresent] at hremoved
    cases hremoved
  have hname : s.name conn = s.name removed := by
    rw [(hs.name_eq_iff hconn removed).mpr hnumber, hs.name removed haccepted]
  have hpresent' := (present_removeConnectionInLoop removed conn).mpr ⟨hne, hpresent⟩
  have hentry := (ht.exact (s.name removed) conn).mpr ⟨hpresent', hname⟩
  have herased : (s.removeConnectionInLoop removed).connections_ (s.name removed) = none :=
    Function.update_self _ _ _
  rw [herased] at hentry
  cases hentry

/-- A call whose numbers are not free leads to a state where names do not identify. -/
theorem step_clash (hs : Numbered listenAddr s) {call : Call} {t : Registry} (hused : ¬ s.NumbersFree call)
    (hstep : registry.step s call = some t) : ¬ t.Identified := by
  obtain ⟨rfl, rfl⟩ | ⟨removed, haccepted, rfl, rfl⟩ := Registry.step_cases hstep
  · exact hs.newConnection_clash hused
  · exact hs.removeConnectionInLoop_clash haccepted hused

/-- A call whose numbers are free does with the entries what it should. -/
theorem entriesKept (hs : Numbered listenAddr s) {call : Call} {t : Registry} (hfree : s.NumbersFree call)
    (hstep : registry.step s call = some t) : s.EntriesKept t call := by
  have ht := hs.step hfree hstep
  obtain ⟨rfl, rfl⟩ | ⟨removed, haccepted, rfl, rfl⟩ := Registry.step_cases hstep
  · intro key conn hentry
    obtain ⟨hpresent, hname⟩ := (hs.identified.exact key conn).mp hentry
    have hearlier : conn ≠ s.accepted := Nat.ne_of_lt (hs.present_lt conn hpresent)
    refine (ht.identified.exact key conn).mpr ⟨(present_newConnection conn).mpr (Or.inr hpresent), ?_⟩
    rw [name_newConnection hearlier, hname]
  · intro key other
    rw [ht.identified.exact, hs.identified.exact, present_removeConnectionInLoop]
    constructor
    · rintro ⟨⟨hne, hpresent⟩, hname⟩
      exact ⟨⟨hpresent, hname⟩, hne⟩
    · rintro ⟨⟨hpresent, hname⟩, hne⟩
      exact ⟨⟨hne, hpresent⟩, hname⟩

end Numbered

/-- Names identify connections all along a run, and no call touches another's entry,
exactly when every call finds its numbers free. -/
theorem names_identify_connections (listenAddr : InetAddress) (nameArg : List Char) (calls : List Call)
    (u : Registry) (hrun : registry.run (.construct listenAddr nameArg) calls = some u) :
    ((∀ done t, done <+: calls → registry.run (.construct listenAddr nameArg) done = some t → t.Identified) ∧
      registry.Along (fun s call => ∀ t, registry.step s call = some t → s.EntriesKept t call)
        (.construct listenAddr nameArg) calls) ↔
    registry.Along Registry.NumbersFree (.construct listenAddr nameArg) calls := by
  have hstart := Numbered.construct listenAddr nameArg
  have hkeep : ∀ s call t, Numbered listenAddr s → s.NumbersFree call → registry.step s call = some t →
      Numbered listenAddr t := fun _ _ _ hs hfree hstep => hs.step hfree hstep
  have hclash : ∀ s call t, Numbered listenAddr s → ¬ s.NumbersFree call → registry.step s call = some t →
      ¬ t.Identified := fun _ _ _ hs hused hstep => hs.step_clash hused hstep
  have hiff := Machine.along_iff_forall_prefix (fun _ => True) (Numbered listenAddr) Registry.Identified
    (fun _ hs => hs.identified) (fun s call t hs _ => hkeep s call t hs) (fun s call t hs _ => hclash s call t hs)
    (fun _ _ => trivial) hstart hrun
  constructor
  · rintro ⟨hidentified, -⟩
    exact hiff.mp hidentified
  · intro halong
    refine ⟨hiff.mpr halong, halong.mono hkeep ?_ hstart⟩
    intro s call hs hfree t hstep
    exact hs.entriesKept hfree hstep

/-- Three connections, of which the first goes before the last one comes. -/
def inTurn : List Call := [.newConnection, .newConnection, .removeConnectionInLoop 0, .newConnection]

theorem names_identify_connections_inTurn :
    registry.Along Registry.NumbersFree (.construct .loopback "EchoServer".toList) inTurn ∧
    (∀ done t, done <+: inTurn → registry.run (.construct .loopback "EchoServer".toList) done = some t →
      t.Identified) ∧
    registry.Along (fun s call => ∀ t, registry.step s call = some t → s.EntriesKept t call)
      (.construct .loopback "EchoServer".toList) inTurn := by
  have hfree : registry.Along Registry.NumbersFree (.construct .loopback "EchoServer".toList) inTurn := by decide
  exact ⟨hfree, (names_identify_connections .loopback "EchoServer".toList inTurn _ rfl).mpr hfree⟩

/-- A connection that stays, and others of which each is removed before the next one. -/
def comeAndGo : Nat → List Call
  | 0 => [.newConnection]
  | n + 1 => comeAndGo n ++ [.newConnection, .removeConnectionInLoop (n + 1)]

/-- As long as the counter has not come round, only the first connection is present
when the others have gone. -/
theorem run_comeAndGo (listenAddr : InetAddress) (nameArg : List Char) {n : Nat} (hn : n < 2 ^ 32) :
    ∃ s, registry.run (.construct listenAddr nameArg) (comeAndGo n) = some s ∧ Numbered listenAddr s ∧
      s.accepted = n + 1 ∧ ∀ conn, s.present conn = true ↔ conn = 0 := by
  induction n with
  | zero =>
    have hstart := Numbered.construct listenAddr nameArg
    refine ⟨_, rfl, hstart.newConnection nofun, rfl, fun conn => ?_⟩
    rw [Numbered.present_newConnection]
    simp [Registry.construct]
  | succ n ih =>
    obtain ⟨s, hrun, hs, haccepted, hpresent⟩ := ih (by omega)
    have hfree : s.NumbersFree .newConnection := by
      intro conn _ hconn
      rw [(hpresent conn).mp hconn, haccepted]
      omega
    have ht := hs.newConnection hfree
    have hlast : s.newConnection.present (n + 1) = true := by
      rw [Numbered.present_newConnection, haccepted]
      exact Or.inl rfl
    have hnext : n + 1 < s.newConnection.accepted := ht.present_lt _ hlast
    have hagain : s.newConnection.NumbersFree (.removeConnectionInLoop (n + 1)) := by
      intro hremoved
      rw [hlast] at hremoved
      cases hremoved
    refine ⟨s.newConnection.removeConnectionInLoop (n + 1), ?_, ht.removeConnectionInLoop hnext hagain, ?_, ?_⟩
    · refine Machine.run_trans hrun ?_
      simp [Machine.run, registry, Registry.step, hnext]
    · change s.accepted + 1 = n + 1 + 1
      rw [haccepted]
    · intro conn
      rw [Numbered.present_removeConnectionInLoop, Numbered.present_newConnection, hpresent, haccepted]
      omega

/-- The counter comes round: the connection accepted as number 2^32 gets the name of
the first one, which is still present, and its entry. -/
theorem names_identify_connections_overrun :
    ∃ t, registry.run (.construct .loopback "EchoServer".toList)
        (comeAndGo (2 ^ 32 - 1) ++ [.newConnection]) = some t ∧
      t.present 0 = true ∧ t.present (2 ^ 32) = true ∧ t.name 0 = t.name (2 ^ 32) ∧
      t.connections_ (t.name 0) = some (2 ^ 32) ∧ ¬ t.Identified := by
  obtain ⟨s, hrun, hs, haccepted, hpresent⟩ :=
    run_comeAndGo .loopback "EchoServer".toList (n := 2 ^ 32 - 1) (by omega)
  have hround : s.accepted = 2 ^ 32 := by omega
  have hfirst : 0 < s.accepted := by omega
  have hname : s.name 0 = connName s.name_ s.ipPort_ s.nextConnId_ := by
    rw [hs.nextConnId_, hs.name_eq_iff hfirst, hround, Nat.zero_mod, Nat.mod_self]
  have hused : ¬ s.NumbersFree .newConnection := by
    intro hfree
    exact hs.fresh hfree ((hpresent 0).mpr rfl) hname
  refine ⟨s.newConnection, Machine.run_trans hrun rfl, ?_, ?_, ?_, ?_, hs.newConnection_clash hused⟩
  · exact (Numbered.present_newConnection 0).mpr (Or.inr ((hpresent 0).mpr rfl))
  · exact (Numbered.present_newConnection _).mpr (Or.inl hround.symm)
  · rw [Numbered.name_newConnection (by omega), hname, ← hround, Numbered.name_accepted]
  · rw [Numbered.name_newConnection (by omega), hname, ← hround]
    exact Function.update_self _ _ _

/-! A server keys its map by the number at the end of a name. That is the map of the
source, seen through the names: both calls do the same to the two. -/

theorem newConnection_byName {L : Type} [DecidableEq L] (listenAddr : InetAddress) (nameArg : List Char)
    {s : TcpServer L} {connections : List Char → Option Nat}
    (hs : s.connections_ = connections ∘ connName nameArg listenAddr.toIpPort)
    (l : L) (sockfd address : Nat) (rest : List Job) :
    (s.newConnection l sockfd address rest).connections_ =
      Function.update connections (connName nameArg listenAddr.toIpPort s.nextConnId_) (some address) ∘
        connName nameArg listenAddr.toIpPort := by
  have hmap : (s.newConnection l sockfd address rest).connections_ =
      Function.update s.connections_ s.nextConnId_ (some address) :=
    (TcpServer.sameData_newConnection s l sockfd address rest).connections_
  rw [hmap, hs, Function.update_comp_eq_of_injective _ (connName_injective nameArg listenAddr)]

theorem removeConnectionInLoop_byName {L : Type} [DecidableEq L] (listenAddr : InetAddress) (nameArg : List Char)
    {s : TcpServer L} {connections : List Char → Option Nat}
    (hs : s.connections_ = connections ∘ connName nameArg listenAddr.toIpPort)
    (l : L) (conn : Nat) (object : Object L) (rest : List Job) :
    (s.removeConnectionInLoop l conn object rest).connections_ =
      Function.update connections (connName nameArg listenAddr.toIpPort object.name_) none ∘
        connName nameArg listenAddr.toIpPort := by
  have hmap : (s.removeConnectionInLoop l conn object rest).connections_ =
      Function.update s.connections_ object.name_ none := rfl
  rw [hmap, hs, Function.update_comp_eq_of_injective _ (connName_injective nameArg listenAddr)]

end muduo.tcp_server

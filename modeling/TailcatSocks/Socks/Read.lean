import TailcatSocks.Socks.Messages

/-!
# Reading SOCKS5 messages

Addresses and frames are read field by field, with a length that depends on
what was read before.  A reader of them takes exactly the encoding of the value
that it returns; readers that raise different errors agree.
-/

namespace TailcatSocks.Socks

open Library

variable {ε δ : Type}

def readAddress (raise : Fault → ε) (unsupported : UInt8 → ε) (atyp : UInt8) :
    EStateM ε Conn Address :=
  match atyp with
  | 1 => do
      let octets ← readExact raise 4
      pure (.ipv4 octets)
  | 3 => do
      let count ← readExact raise 1
      let name ← readExact raise (count.get 0).toNat
      pure (.ofBlock (count.get 0) name)
  | 4 => do
      let octets ← readExact raise 16
      pure (.ipv6 octets)
  | other => throw (unsupported other)

/-- The address and the port that follow the head of a frame. -/
def readTail (raise : Fault → ε) (unsupported : UInt8 → ε) (atyp : UInt8) :
    EStateM ε Conn (Address × Block 2) := do
  let address ← readAddress raise unsupported atyp
  let port ← readExact raise 2
  pure (address, port)

def readFrame (raise : Fault → ε) (unsupported : UInt8 → ε) : EStateM ε Conn Frame := do
  let head ← readExact raise 4
  let (address, port) ← readTail raise unsupported (head.get 3)
  pure ⟨head.get 0, head.get 1, head.get 2, address, port⟩

/-! ## What the readers take -/

variable {raise : Fault → ε} {unsupported : UInt8 → ε}

theorem readAddress_unsupported {atyp : UInt8} (notIpv4 : atyp ≠ 1) (notDomain : atyp ≠ 3)
    (notIpv6 : atyp ≠ 4) : readAddress raise unsupported atyp = throw (unsupported atyp) := by
  unfold readAddress
  split
  · exact absurd rfl notIpv4
  · exact absurd rfl notDomain
  · exact absurd rfl notIpv6
  · rfl

theorem readAddress_eq_ok {atyp : UInt8} {conn next : Conn} {address : Address} :
    readAddress raise unsupported atyp conn = .ok address next ↔
      address.atyp = atyp ∧ ∃ rest, conn.unread = address.body ++ rest ∧
        conn.Admits address.awaits ∧ next = conn.advance address.awaits rest [] := by
  constructor
  · intro done
    unfold readAddress at done
    split at done
    · obtain ⟨octets, middle, read, last⟩ := bind_eq_ok.mp done
      obtain ⟨room, rest, starts, rfl⟩ := readExact_eq_ok.mp read
      obtain ⟨rfl, rfl⟩ := pure_eq_ok.mp last
      exact ⟨rfl, rest, starts, room, rfl⟩
    · obtain ⟨count, name, rest, starts, room, rfl, rfl⟩ :=
        (readCounted_eq_ok fun count name => Address.ofBlock count name).mp done
      have awaits : (Address.ofBlock count name).awaits = 1 + awaitsFor count.toNat := by
        rw [Address.ofBlock, Address.awaits, name.2]
      rw [awaits]
      exact ⟨rfl, rest, by rw [starts, Address.body_ofBlock]; rfl, room, rfl⟩
    · obtain ⟨octets, middle, read, last⟩ := bind_eq_ok.mp done
      obtain ⟨room, rest, starts, rfl⟩ := readExact_eq_ok.mp read
      obtain ⟨rfl, rfl⟩ := pure_eq_ok.mp last
      exact ⟨rfl, rest, starts, room, rfl⟩
    · cases done
  · rintro ⟨rfl, rest, starts, room, rfl⟩
    cases address with
    | ipv4 octets =>
        refine bind_eq_ok.mpr ⟨octets, _, readExact_eq_ok.mpr ⟨room, rest, starts, rfl⟩, ?_⟩
        exact pure_eq_ok.mpr ⟨rfl, rfl⟩
    | domain name short =>
        have size := Address.toNat_count short
        have awaits : (Address.domain name short).awaits =
            1 + awaitsFor (UInt8.ofNat name.length).toNat := by rw [Address.awaits, size]
        rw [awaits] at room ⊢
        exact (readCounted_eq_ok fun count name => Address.ofBlock count name).mpr
          ⟨_, ⟨name, size.symm⟩, rest, starts, room, rfl, rfl⟩
    | ipv6 octets =>
        refine bind_eq_ok.mpr ⟨octets, _, readExact_eq_ok.mpr ⟨room, rest, starts, rfl⟩, ?_⟩
        exact pure_eq_ok.mpr ⟨rfl, rfl⟩

theorem readAddress_uncut (address : Address) (rest written : Bytes) :
    readAddress raise unsupported address.atyp ⟨address.body ++ rest, written, none⟩ =
      .ok address ⟨rest, written, none⟩ := by
  refine readAddress_eq_ok.mpr ⟨rfl, rest, rfl, Conn.admits_of_uncut rfl _, ?_⟩
  rw [Conn.advance_of_uncut rfl, List.append_nil]

theorem readAddress_ofBytes (address : Address) (rest : Bytes) :
    readAddress raise unsupported address.atyp (.ofBytes (address.body ++ rest)) =
      .ok address (.ofBytes rest) := readAddress_uncut address rest []

/-- An encoded address ends where it says. -/
theorem body_append_inj {one other : Address} {rest rest' : Bytes} (atyp : one.atyp = other.atyp)
    (same : one.body ++ rest = other.body ++ rest') : one = other ∧ rest = rest' := by
  have readOne := @readAddress_uncut _ id (fun _ => .eof) one rest []
  have readOther := @readAddress_uncut _ id (fun _ => .eof) other rest' []
  rw [atyp, same, readOther] at readOne
  cases readOne
  exact ⟨rfl, rfl⟩

/-- The reader of a known type fails with a fault of a read. -/
theorem readAddress_eq_error {atyp : UInt8} (known : atyp = 1 ∨ atyp = 3 ∨ atyp = 4)
    {conn next : Conn} {e : ε} (failed : readAddress raise unsupported atyp conn = .error e next) :
    ∃ fault, e = raise fault := by
  rcases known with rfl | rfl | rfl
  · rcases bind_eq_error failed with read | ⟨_, _, -, last⟩
    · exact readExact_eq_error read
    · cases last
  · rcases bind_eq_error failed with read | ⟨_, _, -, others⟩
    · exact readExact_eq_error read
    · rcases bind_eq_error others with read | ⟨_, _, -, last⟩
      · exact readExact_eq_error read
      · cases last
  · rcases bind_eq_error failed with read | ⟨_, _, -, last⟩
    · exact readExact_eq_error read
    · cases last

theorem readTail_eq_ok {atyp : UInt8} {conn next : Conn} {address : Address} {port : Block 2} :
    readTail raise unsupported atyp conn = .ok (address, port) next ↔
      address.atyp = atyp ∧ ∃ rest, conn.unread = address.body ++ (port.1 ++ rest) ∧
        conn.Admits (address.awaits + 1) ∧ next = conn.advance (address.awaits + 1) rest [] := by
  constructor
  · intro done
    obtain ⟨address', middle, readBody, others⟩ := bind_eq_ok.mp done
    obtain ⟨port', middle', readPort, last⟩ := bind_eq_ok.mp others
    obtain ⟨isAtyp, rest, starts, room, rfl⟩ := readAddress_eq_ok.mp readBody
    obtain ⟨room', rest', starts', rfl⟩ := readExact_eq_ok.mp readPort
    obtain ⟨same, rfl⟩ := pure_eq_ok.mp last
    cases same
    rw [Conn.advance_unread] at starts'
    refine ⟨isAtyp, rest', by rw [starts, starts'], ?_, ?_⟩
    · exact (conn.admits_add _ 1 rest []).mpr ⟨room, room'⟩
    · rw [Conn.advance_advance]
      rfl
  · rintro ⟨isAtyp, rest, starts, room, rfl⟩
    obtain ⟨roomBody, roomPort⟩ := (conn.admits_add _ 1 (port.1 ++ rest) []).mp room
    refine bind_eq_ok.mpr ⟨_, _, readAddress_eq_ok.mpr ⟨isAtyp, _, starts, roomBody, rfl⟩, ?_⟩
    refine bind_eq_ok.mpr ⟨port, _, readExact_eq_ok.mpr ⟨roomPort, _, rfl, rfl⟩, ?_⟩
    refine pure_eq_ok.mpr ⟨rfl, ?_⟩
    rw [Conn.advance_advance]
    rfl

/-- A frame is read as its head and what follows. -/
theorem frame_split {conn : Conn} {frame : Frame} {rest : Bytes} :
    (conn.unread = frame.encode ++ rest ∧ conn.Admits frame.awaits) ↔
      conn.Admits (awaitsFor 4) ∧ ∃ tail, conn.unread = frame.head.1 ++ tail ∧
        tail = frame.address.body ++ (frame.port.1 ++ rest) ∧
        (conn.advance (awaitsFor 4) tail []).Admits (frame.address.awaits + 1) := by
  rw [Frame.encode, List.append_assoc, List.append_assoc]
  constructor
  · rintro ⟨starts, room⟩
    obtain ⟨roomHead, roomTail⟩ := (conn.admits_add 1 _ _ []).mp room
    exact ⟨roomHead, _, starts, rfl, roomTail⟩
  · rintro ⟨roomHead, tail, starts, rfl, roomTail⟩
    exact ⟨starts, (conn.admits_add 1 _ _ []).mpr ⟨roomHead, roomTail⟩⟩

/-- The frame with a given head. -/
theorem head_eq {head : Block 4} {address : Address} (isAtyp : address.atyp = head.get 3)
    (port : Block 2) :
    head.1 = (Frame.mk (head.get 0) (head.get 1) (head.get 2) address port).head.1 := by
  rw [Frame.head, isAtyp, block_four head]

/-- A frame is read exactly when the stream starts with its encoding. -/
theorem readFrame_eq_ok {conn next : Conn} {frame : Frame} :
    readFrame raise unsupported conn = .ok frame next ↔
      ∃ rest, conn.unread = frame.encode ++ rest ∧ conn.Admits frame.awaits ∧
        next = conn.advance frame.awaits rest [] := by
  constructor
  · intro done
    obtain ⟨head, middle, readHead, others⟩ := bind_eq_ok.mp done
    obtain ⟨⟨address, port⟩, middle', readRest, last⟩ := bind_eq_ok.mp others
    obtain ⟨room, tail, starts, rfl⟩ := readExact_eq_ok.mp readHead
    obtain ⟨isAtyp, rest, starts', room', rfl⟩ := readTail_eq_ok.mp readRest
    obtain ⟨rfl, rfl⟩ := pure_eq_ok.mp last
    rw [head_eq isAtyp port] at starts
    obtain ⟨whole, roomWhole⟩ := frame_split.mpr ⟨room, tail, starts, starts', room'⟩
    exact ⟨rest, whole, roomWhole, Conn.advance_advance ..⟩
  · rintro ⟨rest, whole, roomWhole, rfl⟩
    obtain ⟨room, tail, starts, starts', room'⟩ := frame_split.mp ⟨whole, roomWhole⟩
    refine bind_eq_ok.mpr ⟨frame.head, _, readExact_eq_ok.mpr ⟨room, tail, starts, rfl⟩, ?_⟩
    refine bind_eq_ok.mpr ⟨(frame.address, frame.port), _,
      readTail_eq_ok.mpr ⟨rfl, rest, starts', room', rfl⟩, ?_⟩
    refine pure_eq_ok.mpr ⟨rfl, ?_⟩
    exact conn.advance_advance _ _ tail rest [] []

/-! ## What the readers do not depend on -/

theorem readAddress_silent (atyp : UInt8) : Silent (readAddress raise unsupported atyp) := by
  unfold readAddress
  split
  · exact (Silent.readExact _ _).bind fun octets => .pure _
  · exact (Silent.readExact _ _).bind fun count => (Silent.readExact _ _).bind fun name => .pure _
  · exact (Silent.readExact _ _).bind fun octets => .pure _
  · exact .throw _

theorem readTail_silent (atyp : UInt8) : Silent (readTail raise unsupported atyp) :=
  (readAddress_silent _).bind fun _ => (Silent.readExact _ _).bind fun _ => .pure _

theorem readFrame_silent : Silent (readFrame raise unsupported) :=
  (Silent.readExact _ _).bind fun _ => (readTail_silent _).bind fun _ => .pure _

variable (raise unsupported) (raise' : Fault → δ) (unsupported' : UInt8 → δ)

theorem readAddress_agree (atyp : UInt8) :
    Agree (readAddress raise unsupported atyp) (readAddress raise' unsupported' atyp) := by
  unfold readAddress
  split
  · exact (Agree.readExact _ _ _).bind fun octets => .pure _
  · exact (Agree.readExact _ _ _).bind fun count => (Agree.readExact _ _ _).bind fun name => .pure _
  · exact (Agree.readExact _ _ _).bind fun octets => .pure _
  · exact .throw _ _

theorem readTail_agree (atyp : UInt8) :
    Agree (readTail raise unsupported atyp) (readTail raise' unsupported' atyp) :=
  (readAddress_agree _ _ _ _ _).bind fun _ => (Agree.readExact _ _ _).bind fun _ => .pure _

theorem readFrame_agree :
    Agree (readFrame raise unsupported) (readFrame raise' unsupported') :=
  (Agree.readExact _ _ _).bind fun _ => (readTail_agree _ _ _ _ _).bind fun _ => .pure _

end TailcatSocks.Socks

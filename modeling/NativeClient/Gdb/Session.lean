import NativeClient.Gdb.PacketContents

/-!
# Sessions of the remote debugging protocol

A session puts packets into frames `$body#xx`, where `xx` is the sum of the
body, and takes frames from a transport one character at a time.  Two
variables of `GetPacket` are read without a value when the characters behind
`#` are not digits: `junk` is what the variable holds then.
-/

namespace NativeClient.Gdb

open NativeClient.Library

inductive Arrival where
  | char (ch : UInt8)
  /-- The wait times out. -/
  | nothing
  /-- There is something to read, but reading it fails. -/
  | closed

/-- `writes` are the answers of the transport to `Write`; without an answer it
fails. -/
structure Session where
  arrivals : List Arrival
  writes : List Int
  sent : List UInt8
  connected : Bool
  ignoreAck : Bool
  useSeq : Bool
  seq : UInt8

def xsum (chars : List UInt8) : UInt8 := chars.foldl (· + ·) 0

def intNibble (value : Int) : Option UInt8 :=
  if value < 0 then none else intToNibble value.toNat

def lowByte (value : Int) : UInt8 := (value % 256).toNat.toUInt8

section Sending

/-- The loop of `SendStream`: whether everything was sent, what was, and the
answers that are left. -/
def writeAll : (writes : List Int) → (out : List UInt8) →
    Bool × List UInt8 × List Int
  | writes, [] => (true, [], writes)
  | [], _ :: _ => (false, [], [])
  | tx :: writes, ch :: out =>
      if tx ≤ 0 then (false, [], writes)
      else
        let rest := writeAll writes ((ch :: out).drop tx.toNat)
        (rest.1, (ch :: out).take tx.toNat ++ rest.2.1, rest.2.2)

namespace Session

variable (session : Session)

def sendStream (out : List UInt8) : Bool × Session :=
  let written := writeAll session.writes out
  (written.1,
    { session with
      writes := written.2.2
      sent := session.sent ++ written.2.1
      connected := session.connected && written.1 })

end Session

def sequenceText (seq : Int) : List UInt8 :=
  [nibble (seq % 256 / 16).toNat, nibble (seq % 16).toNat, ascii ':']

def frameBody (seq : Int) (payload : List UInt8) : List UInt8 :=
  (if seq = -1 then [] else sequenceText seq) ++ payload

def frameText (body : List UInt8) : List UInt8 :=
  ascii '$' :: body ++
    [ascii '#', nibble ((xsum body).toNat / 16), nibble ((xsum body).toNat % 16)]

/-- `GetPayload`, a string that ends in front of the first NUL. -/
def Packet.payload (pkt : Packet) : List UInt8 :=
  pkt.data.takeWhile fun ch => ch != 0

def Session.sendPacketOnly (session : Session) (pkt : Packet) :
    Bool × Packet × Session :=
  let numbered := pkt.seq = -1 ∧ session.useSeq
  let seq : Int := if numbered then session.seq.toNat else pkt.seq
  let session :=
    if numbered then { session with seq := session.seq + 1 } else session
  let sent := session.sendStream (frameText (frameBody seq pkt.payload))
  (sent.1, { pkt with seq := seq }, sent.2)

end Sending

section Receiving

/-- The places where `GetPacket` waits for a character; at `retry` the packet is
cleared after the wait. -/
inductive Place where
  | start
  | retry
  | data
  | firstCheck
  | secondCheck
  deriving DecidableEq

/-- The variables of `GetPacket`, and the number of frames that it refused. -/
structure Receiver where
  place : Place
  hasSeq : Bool
  offs : Nat
  runXsum : UInt8
  finXsum : UInt8
  val : Int
  refused : Nat
  packet : Packet

/-- The check of the characters `xx:` of a sequence number. -/
def checkSeq (hasSeq : Bool) (offs : Nat) (ch : UInt8) : Bool :=
  if offs < 2 then hasSeq && (nibbleToInt ch).isSome
  else if offs = 2 then hasSeq && ch == ascii ':'
  else hasSeq

/-- `NibbleToInt(ch, &val)`, the result of which is not looked at. -/
def nibbleOver (ch : UInt8) (val : Int) : Int :=
  match nibbleToInt ch with
  | some digit => digit
  | none => val

namespace Receiver

def clear (receiver : Receiver) : Receiver :=
  { receiver with
    place := .data
    hasSeq := true
    offs := 0
    runXsum := 0
    finXsum := 0
    packet := receiver.packet.clear }

def dataChar (receiver : Receiver) (ch : UInt8) : Receiver :=
  let receiver :=
    { receiver with
      hasSeq := checkSeq receiver.hasSeq receiver.offs ch
      offs := receiver.offs + 1 }
  if ch = ascii '#' then { receiver with place := .firstCheck }
  else if ch = ascii '$' then { receiver with place := .retry }
  else
    { receiver with
      runXsum := receiver.runXsum + ch
      packet := receiver.packet.addRawChar ch }

def firstChar (junk : Nat → Int) (receiver : Receiver) (ch : UInt8) :
    Receiver :=
  let val := nibbleOver ch (junk receiver.refused)
  { receiver with
    place := .secondCheck, val := val, finXsum := lowByte (val * 16) }

def secondChar (receiver : Receiver) (ch : UInt8) : Receiver :=
  let val := nibbleOver ch receiver.val
  { receiver with val := val, finXsum := receiver.finXsum ||| lowByte val }

/-- Takes the sequence number off the packet; false if no colon follows it.
The packet starts with `xx:`, so that neither call fails. -/
def pullSequence (char : CharType) (pkt : Packet) : Bool × Packet :=
  let word := pkt.getWord8 char
  let colon := Packet.getRawChar char
    { word.2 with seq := (word.1.getD 0).toNat } 0
  (colon.ch == ascii ':', colon.packet)

def plusText (pkt : Packet) : List UInt8 :=
  if pkt.seq = -1 then [ascii '+']
  else
    [ascii '+', (intNibble (pkt.seq / 16)).getD 0,
      (intNibble (pkt.seq % 16)).getD 0].takeWhile fun ch => ch != 0

/-- What `GetPacket` does when the frame is complete: it returns, or goes back
to `retry`. -/
def finish (char : CharType) (receiver : Receiver) (session : Session) :
    Turn (Receiver × Session) (Bool × Packet × Session) :=
  let pulled :=
    if receiver.hasSeq then pullSequence char receiver.packet
    else (true, receiver.packet)
  if pulled.1 = false then .leave (false, pulled.2, session)
  else if session.ignoreAck then .leave (true, pulled.2, session)
  else if receiver.finXsum = receiver.runXsum then
    let answered := session.sendStream (plusText pulled.2)
    .leave (answered.1, pulled.2, answered.2)
  else
    .again
      ({ receiver with
          place := .retry, refused := receiver.refused + 1
          packet := pulled.2 },
        (session.sendStream [ascii '-']).2)

end Receiver

/-- `GetPacket` from one of its places on: whether there is a packet, the
packet, and the session. -/
def receive (char : CharType) (junk : Nat → Int) :
    List Arrival → Receiver → Session → Bool × Packet × Session
  | [], receiver, session =>
      (false, receiver.packet, { session with arrivals := [] })
  | .nothing :: rest, receiver, session =>
      (false, receiver.packet, { session with arrivals := rest })
  | .closed :: rest, receiver, session =>
      (false,
        (if receiver.place = .retry then receiver.packet.clear
          else receiver.packet),
        { session with arrivals := rest, connected := false })
  | .char ch :: rest, receiver, session =>
      match receiver.place with
      | .start =>
          let place := if ch = ascii '$' then Place.retry else .start
          receive char junk rest { receiver with place := place } session
      | .retry => receive char junk rest (receiver.clear.dataChar ch) session
      | .data => receive char junk rest (receiver.dataChar ch) session
      | .firstCheck =>
          receive char junk rest (receiver.firstChar junk ch) session
      | .secondCheck =>
          match (receiver.secondChar ch).finish char session with
          | .again next => receive char junk rest next.1 next.2
          | .leave (ok, packet, session) =>
              (ok, packet, { session with arrivals := rest })

def Session.getPacket
    (char : CharType) (junk : Nat → Int) (session : Session) (pkt : Packet) :
    Bool × Packet × Session :=
  receive char junk session.arrivals
    ⟨.start, true, 0, 0, 0, 0, 0, pkt⟩ session

end Receiving

end NativeClient.Gdb

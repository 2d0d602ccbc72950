import MiniUPnPd.Lib.Inet

/-!
The answers of a STUN server: how they are received on four sockets in up to three rounds, and
how the mapped address is read from one of them. What `recvfrom` and `select` give is taken as
it comes. A buffer is the bytes of which it consists; an access outside it has no result.
-/
namespace UpnpStun

/-- In host order. -/
structure SockaddrIn where
  sinPort : UInt16
  sinAddr : InAddr
  deriving DecidableEq

def sizeofSockaddrIn : Nat := 16

section receiving

inductive Recvfrom
  | failed
  | datagram (data : List UInt8) (peerAddr : SockaddrIn) (peerAddrLen : Nat)
  deriving DecidableEq

def responseSize : Nat := 1024

/-- The buffer and the peer address after the call. -/
def recvfrom (arrival : Recvfrom) (buffer : List UInt8) (peerAddr : Option SockaddrIn) :
    List UInt8 × Option SockaddrIn :=
  match arrival with
  | .failed => (buffer, peerAddr)
  | .datagram data peer _ =>
      (data.take responseSize ++ buffer.drop (min data.length responseSize), some peer)

/-- The length that is returned, with the buffer as `recvfrom` left it. -/
def receiveStunResponse (arrival : Recvfrom) (buffer transactionId : List UInt8) : Nat :=
  match arrival with
  | .failed => 0
  | .datagram data _ peerAddrLen =>
      let len := min data.length responseSize
      if peerAddrLen ≠ sizeofSockaddrIn then 0
      else if len < 20 then 0
      else if buffer.getD 0 0 &&& 0xFF ≠ 0x01 ∨ buffer.getD 1 0 &&& 0xEF ≠ 0x01 then 0
      else if (buffer.drop 8).take 12 ≠ transactionId then 0
      else len

/-- What belongs to one of the four requests. `heard` is not a variable of the source: it lists
    what `recvfrom` has given on the socket so far. -/
structure Response where
  buffer : List UInt8
  peerAddr : Option SockaddrIn
  len : Nat
  heard : List Recvfrom
  deriving DecidableEq

def Response.receive (transactionId : List UInt8) (arrival : Recvfrom) (r : Response) : Response :=
  let (buffer, peerAddr) := recvfrom arrival r.buffer r.peerAddr
  { buffer
    peerAddr
    len := receiveStunResponse arrival buffer transactionId
    heard := r.heard ++ [arrival] }

structure Timeval where
  tvSec : Int
  tvUsec : Int

/-- What `select` does, with the time it leaves and what then is read from the sockets that are
    ready. -/
inductive Select
  | interrupted (timeout : Timeval)
  | failed
  | noMore
  | ready (arrived : Fin 4 → Option Recvfrom) (timeout : Timeval)

def allReceived (responses : Fin 4 → Response) : Bool :=
  (responses 0).len ≠ 0 ∧ (responses 1).len ≠ 0 ∧ (responses 2).len ≠ 0 ∧ (responses 3).len ≠ 0

def receiveReady (transactionIds : Fin 4 → List UInt8) (arrived : Fin 4 → Option Recvfrom)
    (responses : Fin 4 → Response) : Fin 4 → Response := fun i =>
  match arrived i with
  | none => responses i
  | some arrival => (responses i).receive (transactionIds i) arrival

/-- No result when it still waits after these calls of `select`. -/
def waitForStunResponses (transactionIds : Fin 4 → List UInt8) :
    List Select → Timeval → (Fin 4 → Response) → Option (Int × (Fin 4 → Response))
  | selects, timeout, responses =>
      if timeout.tvSec > 0 ∨ timeout.tvUsec > 0 then
        match selects with
        | [] => none
        | .interrupted timeout :: selects =>
            waitForStunResponses transactionIds selects timeout responses
        | .failed :: _ => some (-1, responses)
        | .noMore :: _ => some (0, responses)
        | .ready arrived timeout :: selects =>
            let responses := receiveReady transactionIds arrived responses
            if allReceived responses then some (0, responses)
            else waitForStunResponses transactionIds selects timeout responses
      else some (0, responses)

/-- The rounds of `perform_stun`, each with the calls of `select` in it, up to the return of the
    last `wait_for_stun_responses`. What is sent does not matter here. -/
def stunRounds (transactionIds : Fin 4 → List UInt8) :
    List (List Select) → (Fin 4 → Response) → Option (Fin 4 → Response)
  | [], responses => some responses
  | selects :: rounds, responses =>
      match waitForStunResponses transactionIds selects { tvSec := 3, tvUsec := 0 } responses with
      | none => none
      | some (ret, responses) =>
          if ret ≠ 0 ∨ allReceived responses then some responses
          else stunRounds transactionIds rounds responses

end receiving

section parsing

/-- What has been read so far. -/
structure MappedAddr where
  haveAddress : Bool
  haveXorMappedAddress : Bool
  mappedAddr : Option SockaddrIn
  deriving DecidableEq

def readU16 (buffer : List UInt8) (i : Nat) : Option Nat := do
  let high ← buffer[i]?
  let low ← buffer[i + 1]?
  return high.toNat * 256 + low.toNat

def readSockaddr (buffer : List UInt8) (i : Nat) : Option SockaddrIn := do
  let port ← readU16 buffer i
  let high ← readU16 buffer (i + 2)
  let low ← readU16 buffer (i + 4)
  return { sinPort := UInt16.ofNat port, sinAddr := BitVec.ofNat 32 (high * 2 ^ 16 + low) }

/-- The bytes that a log line shows. -/
def logBytes (buffer : List UInt8) (i n : Nat) : Option Unit :=
  if i + n ≤ buffer.length then some () else none

/-- `%.*s` of a log line reads up to a NUL or the given number of bytes. -/
def logText (buffer : List UInt8) : (i precision : Nat) → Option Unit
  | _, 0 => some ()
  | i, precision + 1 => do
      let c ← buffer[i]?
      if c = 0 then some () else logText buffer (i + 1) precision

def xorByte (buffer : List UInt8) (i j : Nat) : Option (List UInt8) := do
  let x ← buffer[i]?
  let y ← buffer[j]?
  return buffer.set i (x ^^^ y)

/-- The port and the address with the magic cookie, in place. -/
def restoreXor (buffer : List UInt8) (ptr : Nat) : Option (List UInt8) := do
  let buffer ← xorByte buffer (ptr + 2) 4
  let buffer ← xorByte buffer (ptr + 3) 5
  let buffer ← xorByte buffer (ptr + 4) 4
  let buffer ← xorByte buffer (ptr + 5) 5
  let buffer ← xorByte buffer (ptr + 6) 6
  xorByte buffer (ptr + 7) 7

def isXor (attrType : Nat) : Bool := attrType % 2 ^ 15 = 0x0020

/-- `attr_len == 8 && ptr[1] == 1` -/
def isIPv4 (buffer : List UInt8) (ptr attrLen : Nat) : Option Bool :=
  if attrLen = 8 then do
    let family ← buffer[ptr + 1]?
    return family == 1
  else some false

/-- One attribute with its value at `ptr`. -/
def readAttribute (buffer : List UInt8) (ptr attrType attrLen : Nat) (m : MappedAddr) :
    Option (List UInt8 × MappedAddr) :=
  if attrType = 0x0001 ∨ attrType = 0x0020 ∨ attrType = 0x8020 then do
    if ← isIPv4 buffer ptr attrLen then
      let buffer ← if isXor attrType then restoreXor buffer ptr else some buffer
      let address ← readSockaddr buffer (ptr + 2)
      return (buffer,
        { haveAddress := true
          haveXorMappedAddress := isXor attrType || m.haveXorMappedAddress
          mappedAddr := if m.haveXorMappedAddress then m.mappedAddr else some address })
    else some (buffer, m)
  else if attrType = 0x0009 then
    if attrLen ≥ 4 then do
      logBytes buffer (ptr + 2) 2
      logText buffer (ptr + 4) (attrLen - 4)
      return (buffer, m)
    else some (buffer, m)
  else if attrType = 0x0004 ∨ attrType = 0x0005 ∨ attrType = 0x802b ∨ attrType = 0x802c then do
    if ← isIPv4 buffer ptr attrLen then
      logBytes buffer (ptr + 2) 6
      return (buffer, m)
    else some (buffer, m)
  else if attrType = 0x8022 then do
    logText buffer ptr attrLen
    return (buffer, m)
  else some (buffer, m)

/-- The loop from `ptr` on. Each attribute takes at least four bytes, so that there are fewer
    of them than bytes. -/
def parseAttributes : (fuel : Nat) → (buffer : List UInt8) → (ptr : Nat) → MappedAddr →
    Option (List UInt8 × MappedAddr)
  | 0, _, _, _ => none
  | fuel + 1, buffer, ptr, m =>
      if ptr + 4 ≤ buffer.length then do
        let attrType ← readU16 buffer ptr
        let attrLen ← readU16 buffer (ptr + 2)
        if ptr + 4 + attrLen > buffer.length then some (buffer, m)
        else
          let (buffer, m) ← readAttribute buffer (ptr + 4) attrType attrLen m
          parseAttributes fuel buffer (ptr + 4 + attrLen) m
      else some (buffer, m)

/-- On `buffer[0..len)`: the result, the address and the buffer. No result when a byte outside
    is read or written. -/
def parseStunResponse (buffer : List UInt8) : Option (Int × Option SockaddrIn × List UInt8) :=
  if buffer.length < 20 then some (-1, none, buffer)
  else do
    logBytes buffer 0 8
    let first ← buffer[0]?
    let second ← buffer[1]?
    if first ≠ 0x01 ∨ second &&& 0xEF ≠ 0x01 then some (-1, none, buffer)
    else
      let length ← readU16 buffer 2
      if length + 20 > buffer.length then some (-1, none, buffer)
      else
        let (buffer, m) ← parseAttributes (buffer.length + 1) buffer 20
          { haveAddress := false, haveXorMappedAddress := false, mappedAddr := none }
        return (if m.haveAddress then 0 else -1, m.mappedAddr, buffer)

end parsing

end UpnpStun

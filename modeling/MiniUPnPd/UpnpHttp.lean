import MiniUPnPd.Lib.CString

/-!
HTTP connections: the request buffer, the header parser and the states of a connection.
Positions in the request are indices into the buffer, with a NUL after its end. A character
above 127 is negative where the code compares characters. Allocations for responses succeed.
-/
namespace UpnpHttp
open CText

inductive HttpState where
  | waitingForHttpRequest
  | waitingForHttpContent
  | sendingContinue
  | sendingAndClosing
  | toDelete
  deriving DecidableEq, Repr

/-- The numbers of the enumeration, which the main loop compares. -/
def HttpState.value : HttpState → Nat
  | .waitingForHttpRequest => 0
  | .waitingForHttpContent => 1
  | .sendingContinue => 2
  | .sendingAndClosing => 3
  | .toDelete => 100

/-- What `ParseHttpHeaders` finds out. Offset 0 stands for a header that is missing. -/
structure HttpHeaders where
  reqContentlen : Nat
  reqHostOff : Nat
  reqHostLen : Nat
  reqSoapActionOff : Nat
  reqSoapActionLen : Int
  reqCallbackOff : Nat
  reqCallbackLen : Nat
  flagContinue : Bool
  deriving DecidableEq

def HttpHeaders.none : HttpHeaders :=
  { reqContentlen := 0, reqHostOff := 0, reqHostLen := 0, reqSoapActionOff := 0
    reqSoapActionLen := 0, reqCallbackOff := 0, reqCallbackLen := 0, flagContinue := false }

/-- `struct upnphttp`; the lengths of the two buffers are those of the lists. -/
structure Connection where
  socket : Int
  state : HttpState
  httpVer : CString
  reqBuf : List Char
  reqContentoff : Nat
  headers : HttpHeaders
  resBuf : List Char
  resSent : Nat

def Connection.opened (s : Int) : Connection :=
  { socket := s, state := .waitingForHttpRequest, httpVer := [], reqBuf := []
    reqContentoff := 0, headers := .none, resBuf := [], resSent := 0 }

def newUpnphttp (s : Int) : Option Connection := if s < 0 then none else some (.opened s)

def charAt (buf : List Char) (i : Nat) : Char := buf.getD i '\x00'

/-- The first index from `i` on whose character does not pass. -/
def skip (p : Char → Bool) (buf : List Char) (i : Nat) : Nat :=
  i + ((buf.drop i).takeWhile p).length

def slice (buf : List Char) (i n : Nat) : List Char := (buf.drop i).take n

/-- The test `strncasecmp(buf + i, name, strlen(name)) == 0`. -/
def startsWith (buf : List Char) (i : Nat) (name : CString) : Bool :=
  strcaseeq (slice buf i name.length) name

/-- The end of the header block, before its last four characters. -/
def findendheaders : List Char → Option Nat
  | [] => none
  | c :: s =>
      if "\r\n\r\n".toList.isPrefixOf (c :: s) then some 0 else (findendheaders s).map (· + 1)

def crlfAt : List Char → Nat
  | [] => 0
  | c :: s => if "\r\n".toList.isPrefixOf (c :: s) then 0 else crlfAt s + 1

def nextLine (buf : List Char) (line : Nat) : Nat := line + crlfAt (buf.drop line) + 2

/-- Where the lines of the header block start; each is at least two characters long. -/
def lineStarts (buf : List Char) (contentoff : Nat) : (fuel line : Nat) → List Nat
  | 0, _ => []
  | fuel + 1, line =>
      if line < contentoff then line :: lineStarts buf contentoff fuel (nextLine buf line) else []

def colonOf (buf : List Char) (line : Nat) : Option Nat :=
  let colon := skip (fun c => c ≠ ':' ∧ c ≠ '\r' ∧ c ≠ '\n') buf line
  if charAt buf colon = ':' then some colon else none

def valueStart (buf : List Char) (colon : Nat) : Nat :=
  skip (fun c => c = ':' ∨ c = ' ' ∨ c = '\t') buf colon

/-- Where the number of a Content-Length line is read. Without a digit on the line this is
    the end of the line, and `atoi` goes on to what follows. -/
def lengthStart (buf : List Char) (colon : Nat) : Nat :=
  skip (fun c => c.isDigit = false ∧ c ≠ '\r' ∧ c ≠ '\n') buf colon

/-- A negative number counts as 0. -/
def contentLength (buf : List Char) (colon : Nat) : Nat :=
  (atoi (buf.drop (lengthStart buf colon))).toNat

def isText (c : Char) : Bool := 32 ≤ c.toNat ∧ c.toNat < 128

def isWord (c : Char) : Bool := 32 < c.toNat ∧ c.toNat < 128

/-- Offset and length of the value, without the quotes around it. A single quote character
    is taken for both of them. -/
def soapActionValue (buf : List Char) (colon : Nat) : Nat × Int :=
  let p := valueStart buf colon
  let n := skip isText buf p - p
  let quoted (q : Char) : Bool := charAt buf p = q ∧ charAt buf (p + n - 1) = q
  if quoted '"' ∨ quoted '\'' then (p + 1, n - 2) else (p, n)

/-- The last index up to `n` with a closing bracket, counted from `p`, or 0. -/
def lastBracket (buf : List Char) (p : Nat) : Nat → Nat
  | 0 => 0
  | n + 1 => if charAt buf (p + (n + 1)) = '>' then n + 1 else lastBracket buf p n

def callbackValue (buf : List Char) (colon : Nat) : Nat × Nat :=
  let p := skip (fun c => c ≠ '<' ∧ c ≠ '\r') buf colon
  (p, lastBracket buf p (skip (· ≠ '\r') buf p - p) + 1)

def parseLine (buf : List Char) (h : HttpHeaders) (line : Nat) : HttpHeaders :=
  match colonOf buf line with
  | none => h
  | some colon =>
    if startsWith buf line "Content-Length:".toList then
      { h with reqContentlen := contentLength buf colon }
    else if startsWith buf line "Host:".toList then
      let p := valueStart buf colon
      { h with reqHostOff := p, reqHostLen := skip isWord buf p - p }
    else if startsWith buf line "SOAPAction:".toList then
      let (off, len) := soapActionValue buf colon
      { h with reqSoapActionOff := off, reqSoapActionLen := len }
    else if startsWith buf line "expect:".toList then
      if startsWith buf (valueStart buf colon) "100-continue".toList then
        { h with flagContinue := true }
      else h
    else if startsWith buf line "Callback:".toList then
      let (off, len) := callbackValue buf colon
      { h with reqCallbackOff := off, reqCallbackLen := len }
    else h

def parseHttpHeaders (buf : List Char) (contentoff : Nat) (h : HttpHeaders) : HttpHeaders :=
  (lineStarts buf contentoff contentoff 0).foldl (parseLine buf) h

/-- No part of the first line is read past its carriage return. -/
def requestLine (buf : List Char) : List Char := buf.takeWhile (· ≠ '\r')

structure QueryLine where
  httpCommand : CString
  httpUrl : CString
  httpVer : CString
  deriving DecidableEq

def cutWord (size : Nat) (line : List Char) : CString × List Char :=
  let word := (line.takeWhile (· ≠ ' ')).take size
  (untilNul word, (line.drop word.length).dropWhile (· = ' '))

def queryLine (buf : List Char) : QueryLine :=
  let (httpCommand, rest) := cutWord 15 (requestLine buf)
  let (httpUrl, rest) := cutWord 127 rest
  { httpCommand, httpUrl, httpVer := untilNul (rest.take 15) }

/-- The Host header names a host instead of an address. -/
def hostRefused (buf : List Char) (h : HttpHeaders) : Bool :=
  let host := slice buf h.reqHostOff h.reqHostLen
  if 0 < h.reqHostOff ∧ 0 < h.reqHostLen then
    if host.head? = some '[' then !(host.drop 1).contains ']'
    else host.any fun c => c ≠ ':' ∧ c ≠ '.' ∧ c.isDigit = false
  else false

structure HttpEnv where
  /-- For a build with `RANDOMIZE_URLS`. -/
  randomUrl : Option CString
  /-- The response that the handler of a request builds. -/
  response : Connection → List Char

def urlRefused (env : HttpEnv) (httpUrl : CString) : Bool :=
  match env.randomUrl with
  | none => false
  | some url => !('/' :: url).isPrefixOf httpUrl

/-- What a call of `send` does: nothing yet, because of a signal or a full buffer, an error,
    or this number of bytes. -/
inductive SendResult where
  | interrupted
  | again
  | failed
  | sent (n : Nat)

/-- The loops of `SendResp_upnphttp` and `SendRespAndClose_upnphttp`. Past the end of the
    list a call sends everything. The flag is false when the rest has to wait. -/
def sendResp : List SendResult → Connection → Bool × Connection
  | [], c => (true, { c with resSent := max c.resSent c.resBuf.length })
  | result :: sends, c =>
      if c.resSent < c.resBuf.length then
        match result with
        | .interrupted => sendResp sends c
        | .again => (false, c)
        | .failed => (true, c)
        | .sent n =>
            if n = 0 then (true, c) else sendResp sends { c with resSent := c.resSent + n }
      else (true, c)

def closeSocket (c : Connection) : Connection := { c with socket := -1, state := .toDelete }

def sendRespAndClose (sends : List SendResult) (c : Connection) : Connection :=
  let (finished, c) := sendResp sends c
  if finished then closeSocket c else { c with state := .sendingAndClosing }

/-- Build the response of the handler and send it. -/
def respondAndClose (env : HttpEnv) (sends : List SendResult) (c : Connection) : Connection :=
  sendRespAndClose sends { c with resBuf := env.response c, resSent := 0 }

/-- The name after the number sign, up to a quote. -/
def soapMethod (action : CString) : Option CString :=
  if '#' ∈ untilNul action then
    let name := (action.dropWhile (· ≠ '#')).drop 1
    some (if '"' ∈ untilNul name then name.takeWhile (· ≠ '"') else name)
  else none

/-- An action that is executed: its method, the text of the SOAPAction header and the body. -/
structure SoapCall where
  method : Option CString
  soapAction : CString
  content : List Char
  deriving DecidableEq

def executeSoapAction (c : Connection) : SoapCall :=
  let action := slice c.reqBuf c.headers.reqSoapActionOff c.headers.reqSoapActionLen.toNat
  { method := soapMethod action
    soapAction := action
    content := slice c.reqBuf c.reqContentoff c.headers.reqContentlen }

def continueText (c : Connection) : List Char := c.httpVer ++ " 100 Continue\r\n\r\n".toList

def bodyReceived (c : Connection) : Bool :=
  c.headers.reqContentlen ≤ c.reqBuf.length - c.reqContentoff

def processHTTPPOST (env : HttpEnv) (sends : List SendResult) (c : Connection) :
    Connection × Option SoapCall :=
  if bodyReceived c then
    if 0 < c.headers.reqSoapActionOff then
      (respondAndClose env sends c, some (executeSoapAction c))
    else (respondAndClose env sends c, none)
  else if c.headers.flagContinue then
    let (finished, c) :=
      sendResp sends { c with resBuf := continueText c, resSent := 0, state := .sendingContinue }
    (if finished then { c with state := .waitingForHttpContent } else c, none)
  else ({ c with state := .waitingForHttpContent }, none)

/-- The request is a POST that is not refused for its Host header or its URL. -/
def postAccepted (env : HttpEnv) (c : Connection) : Bool :=
  hostRefused c.reqBuf c.headers = false ∧
    urlRefused env (queryLine c.reqBuf).httpUrl = false ∧
    (queryLine c.reqBuf).httpCommand = "POST".toList

/-- The connection with the header block read, up to `contentoff`. -/
def readHeaders (contentoff : Nat) (c : Connection) : Connection :=
  { c with
    reqContentoff := contentoff
    httpVer := (queryLine c.reqBuf).httpVer
    headers := parseHttpHeaders c.reqBuf contentoff c.headers }

/-- Every other request is answered at once. -/
def processHttpQuery (env : HttpEnv) (sends : List SendResult) (contentoff : Nat)
    (c : Connection) : Connection × Option SoapCall :=
  let c := readHeaders contentoff c
  if postAccepted env c then processHTTPPOST env sends c
  else (respondAndClose env sends c, none)

/-- What `recv` does; `outOfMemory` is data for which the buffer cannot grow. -/
inductive RecvResult where
  | again
  | failed
  | closed
  | outOfMemory
  | data (chunk : List Char)

/-- What one call of `Process_upnphttp` meets. -/
structure Event where
  recv : RecvResult
  sends : List SendResult

def Connection.receive (c : Connection) (chunk : List Char) : Connection :=
  { c with reqBuf := c.reqBuf ++ chunk }

/-- Look for the end of the headers in what has been received. -/
def searchHeaders (env : HttpEnv) (sends : List SendResult) (c : Connection) :
    Connection × Option SoapCall :=
  match findendheaders c.reqBuf with
  | none => (c, none)
  | some endheaders => processHttpQuery env sends (endheaders + 4) c

def processUpnphttp (env : HttpEnv) (event : Event) (c : Connection) :
    Connection × Option SoapCall :=
  match c.state with
  | .waitingForHttpRequest =>
      match event.recv with
      | .again => (c, none)
      | .failed | .closed => ({ c with state := .toDelete }, none)
      -- the search goes on in the old buffer
      | .outOfMemory => searchHeaders env event.sends { c with state := .toDelete }
      | .data chunk => searchHeaders env event.sends (c.receive chunk)
  | .waitingForHttpContent =>
      match event.recv with
      | .again => (c, none)
      | .failed | .closed | .outOfMemory => ({ c with state := .toDelete }, none)
      | .data chunk =>
          let c := c.receive chunk
          if bodyReceived c then processHTTPPOST env event.sends c else (c, none)
  | .sendingContinue =>
      let (finished, c) := sendResp event.sends c
      (if finished then { c with state := .waitingForHttpContent } else c, none)
  | .sendingAndClosing => (sendRespAndClose event.sends c, none)
  | .toDelete => (c, none)

end UpnpHttp

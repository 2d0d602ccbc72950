import MiniUPnPd.HeaderBlock
import MiniUPnPd.Lib.OutputBuffer

/-!
The answers to HTTP requests. The header is written with `snprintf` into a buffer for 256 characters
more than its format and the body have, and the body is copied behind it. An answer is read here as
the daemon reads a request: up to the first empty line, and by its Content-Length. Allocations
succeed.
-/
namespace ResponseHeaders
open CText HeaderBlock OutputBuffer UpnpHttp

/-- What the build decides. `httpDate` is the text of `strftime`, with ENABLE_HTTP_DATE. -/
structure Build where
  serverString : CString
  httpDate : Option CString
  enableEvents : Bool

/-- The fields of `struct upnphttp` that the header is made from, with the flags one by one. -/
structure Responder where
  httpVer : CString
  acceptLanguage : CString
  flagHtml : Bool
  flagTimeout : Bool
  flagSid : Bool
  flagAllowPost : Bool
  flagAllowSubUnsub : Bool
  reqTimeout : Int
  resSID : CString

structure Status where
  respcode : Nat
  respmsg : CString

/-- Every status line that the daemon sends. -/
def statuses : List Status :=
  [⟨200, "OK".toList⟩, ⟨400, "Bad Request".toList⟩, ⟨400, "Incompatible header fields".toList⟩,
   ⟨404, "Not Found".toList⟩, ⟨405, "Method Not Allowed".toList⟩,
   ⟨412, "Precondition Failed".toList⟩, ⟨500, "Internal Server Error".toList⟩,
   ⟨501, "Not Implemented".toList⟩]

def crlf : CString := ['\r', '\n']

theorem crlf_length : crlf.length = 2 := rfl

/-- `%d` -/
def itoa (n : Int) : CString := if n < 0 then '-' :: utoa n.natAbs else utoa n.natAbs

/-- The format, with its conversions. -/
def httpresphead (build : Build) : CString :=
  "%s %d %s".toList ++ crlf ++
  "Content-Type: %s".toList ++ crlf ++
  "Connection: close".toList ++ crlf ++
  "Content-Length: %d".toList ++ crlf ++
  "Server: ".toList ++ build.serverString ++ crlf ++
  "Ext:".toList ++ crlf

def statusLine (r : Responder) (status : Status) : CString :=
  r.httpVer ++ ' ' :: utoa status.respcode ++ ' ' :: status.respmsg

def contentType (r : Responder) : CString :=
  if r.flagHtml then "text/html".toList else "text/xml; charset=\"utf-8\"".toList

/-- What the format makes of the arguments. -/
def respheadText (build : Build) (r : Responder) (status : Status) (bodylen : Nat) : CString :=
  statusLine r status ++ crlf ++
  "Content-Type: ".toList ++ contentType r ++ crlf ++
  "Connection: close".toList ++ crlf ++
  "Content-Length: ".toList ++ utoa bodylen ++ crlf ++
  "Server: ".toList ++ build.serverString ++ crlf ++
  "Ext:".toList ++ crlf

def dateText (date : CString) : CString := "Date: ".toList ++ date ++ crlf

def timeoutText (r : Responder) : CString :=
  (if r.reqTimeout ≠ 0 then itoa r.reqTimeout else "infinite".toList) ++ crlf

def sidText (r : Responder) : CString := "SID: ".toList ++ r.resSID ++ crlf

def allowText (methods : String) : CString := "Allow: ".toList ++ methods.toList ++ crlf

def languageText (r : Responder) : CString :=
  "Content-Language: ".toList ++
    (if r.acceptLanguage.head? = some '*' then "en".toList else r.acceptLanguage) ++ crlf

/-- The sizes that `malloc` is asked for. -/
def templen (build : Build) (bodylen : Nat) : Nat := (httpresphead build).length + 1 + 256 + bodylen

/-- `res_buf` when the text begins, with what is in new memory. -/
def responseBuffer (build : Build) (memory : Int → Char) (bodylen : Nat)
    (resBuf : Option OutBuffer) : OutBuffer :=
  let new : OutBuffer := { cells := memory, len := 0, alloc := templen build bodylen, writes := [] }
  match resBuf with
  | none => new
  | some b => if b.alloc < templen build bodylen then new else b

/-- The steps of `BuildHeader_upnphttp` that are not taken for every answer. -/
def addDate (build : Build) (b : OutBuffer) : OutBuffer :=
  match build.httpDate with
  | some date => b.snprintf (dateText date)
  | none => b

def addTimeout (build : Build) (r : Responder) (b : OutBuffer) : OutBuffer :=
  if build.enableEvents ∧ r.flagTimeout then
    (b.snprintf "Timeout: Second-".toList).snprintf (timeoutText r)
  else b

def addSid (build : Build) (r : Responder) (b : OutBuffer) : OutBuffer :=
  if build.enableEvents ∧ r.flagSid then b.snprintf (sidText r) else b

def addAllow (r : Responder) (b : OutBuffer) : OutBuffer :=
  if r.flagAllowPost then b.snprintf (allowText "POST")
  else if r.flagAllowSubUnsub then b.snprintf (allowText "SUBSCRIBE, UNSUBSCRIBE")
  else b

def addLanguage (r : Responder) (b : OutBuffer) : OutBuffer :=
  if r.acceptLanguage ≠ [] then b.snprintf (languageText r) else b

def buildHeader (build : Build) (memory : Int → Char) (r : Responder) (status : Status)
    (bodylen : Nat) (resBuf : Option OutBuffer) : OutBuffer :=
  let b := (responseBuffer build memory bodylen resBuf).rewind
  let b := b.snprintf (respheadText build r status bodylen)
  let b := addDate build b
  let b := addTimeout build r b
  let b := addSid build r b
  let b := addAllow r b
  let b := addLanguage r b
  let b := (b.store ['\r']).store ['\n']
  if (b.alloc : Int) < b.len + bodylen then b.grow (b.len + bodylen).toNat else b

/-- Without a body, `bodylen` is 0. -/
def buildResp2 (build : Build) (memory : Int → Char) (r : Responder) (status : Status)
    (body : Option CString) (resBuf : Option OutBuffer) : OutBuffer :=
  let b := buildHeader build memory r status (body.getD []).length resBuf
  match body with
  | some body => b.store body
  | none => b

def beforebody : CString :=
  "<?xml version=\"1.0\"?>\r\n".toList ++
  "<s:Envelope xmlns:s=\"http://schemas.xmlsoap.org/soap/envelope/\" ".toList ++
  "s:encodingStyle=\"http://schemas.xmlsoap.org/soap/encoding/\">".toList ++ "<s:Body>".toList

def afterbody : CString := "</s:Body></s:Envelope>\r\n".toList

def buildSoapResp (build : Build) (memory : Int → Char) (r : Responder) (body : CString)
    (resBuf : Option OutBuffer) : OutBuffer :=
  let b := buildHeader build memory r ⟨200, "OK".toList⟩
    (beforebody.length + afterbody.length + body.length) resBuf
  ((b.store beforebody).store body).store afterbody

/-- The first language of an Accept-Language header, as far as it fits. -/
def firstLanguage (value : List Char) : CString :=
  (value.takeWhile fun c => isWord c && c ≠ ',').take 7

/-- The fields as the request, the event code and the clock leave them. The flags for a subscription
    and those for the allowed methods are set on different paths. -/
structure Bounded (build : Build) (r : Responder) : Prop where
  version : ∃ buf, r.httpVer = (queryLine buf).httpVer
  language : ∃ value, r.acceptLanguage = firstLanguage value
  sid : r.resSID.length ≤ 41 ∧ '\r' ∉ r.resSID
  timeout : -2 ^ 31 ≤ r.reqTimeout ∧ r.reqTimeout < 2 ^ 31
  date : ∀ date ∈ build.httpDate, date.length ≤ 63 ∧ '\r' ∉ date
  server : '\r' ∉ build.serverString
  apart : ¬ ((r.flagTimeout ∨ r.flagSid) ∧ (r.flagAllowPost ∨ r.flagAllowSubUnsub))

section lengths
variable {build : Build} {r : Responder} {status : Status} {bodylen : Nat}

theorem cutWord_rest {c : Char} (size : Nat) (line : List Char)
    (member : c ∈ (cutWord size line).2) : c ∈ line :=
  List.mem_of_mem_drop ((List.dropWhile_suffix _).subset member)

theorem version_short (given : ∃ buf, r.httpVer = (queryLine buf).httpVer) :
    r.httpVer.length ≤ 15 ∧ '\r' ∉ r.httpVer := by
  obtain ⟨buf, same⟩ := given
  have whole : ∀ c ∈ r.httpVer, c ∈ requestLine buf := by
    intro c member
    rw [same] at member
    have taken := List.mem_of_mem_take ((List.takeWhile_prefix _).subset member)
    exact cutWord_rest _ _ (cutWord_rest _ _ taken)
  constructor
  · rw [same]
    exact Nat.le_trans (List.takeWhile_prefix _).length_le (List.length_take_le 15 _)
  · intro member
    have passes := List.all_eq_true.mp List.all_takeWhile _ (whole _ member)
    exact absurd passes (by decide)

theorem language_short (given : ∃ value, r.acceptLanguage = firstLanguage value) :
    r.acceptLanguage.length ≤ 7 ∧ '\r' ∉ r.acceptLanguage := by
  obtain ⟨value, same⟩ := given
  rw [same]
  constructor
  · exact List.length_take_le 7 _
  · intro member
    have word := List.all_takeWhile (p := fun c => isWord c && c ≠ ',') (l := value)
    have passes := List.all_eq_true.mp word _ (List.mem_of_mem_take member)
    exact absurd passes (by decide)

theorem statuses_short : ∀ status ∈ statuses,
    status.respcode < 10 ^ 3 ∧ status.respmsg.length ≤ 26 ∧ '\r' ∉ status.respmsg := by
  decide

theorem itoa_length {n : Int} (low : -2 ^ 31 ≤ n) (high : n < 2 ^ 31) : (itoa n).length ≤ 11 := by
  have digits : (utoa n.natAbs).length ≤ 10 := utoa_length (by decide) (by omega)
  unfold itoa
  split
  · rw [List.length_cons]
    omega
  · omega

/-- The conversions are replaced by at most 69 characters more than they have. -/
theorem respheadText_length (bounded : Bounded build r) (listed : status ∈ statuses)
    (small : bodylen < 2 ^ 31) :
    (respheadText build r status bodylen).length ≤ (httpresphead build).length + 69 := by
  obtain ⟨code, message, -⟩ := statuses_short status listed
  have version := (version_short bounded.version).1
  have codeLength : (utoa status.respcode).length ≤ 3 := utoa_length (by decide) code
  have bodyLength : (utoa bodylen).length ≤ 10 := utoa_length (by decide) (by omega)
  have type : (contentType r).length ≤ 25 := by
    unfold contentType
    split
    · decide
    · decide
  have first : ("%s %d %s".toList).length = 8 := rfl
  have second : ("Content-Type: %s".toList).length = 16 := rfl
  have types : ("Content-Type: ".toList).length = 14 := rfl
  have third : ("Content-Length: %d".toList).length = 18 := rfl
  have lengths : ("Content-Length: ".toList).length = 16 := rfl
  unfold respheadText statusLine httpresphead
  simp only [List.length_append, List.length_cons, crlf_length, first, second, types, third,
    lengths]
  omega

/-- The lines that only some answers have. -/
def dateLine (build : Build) : CString :=
  match build.httpDate with
  | some date => dateText date
  | none => []

def timeoutLine (build : Build) (r : Responder) : CString :=
  if build.enableEvents ∧ r.flagTimeout then "Timeout: Second-".toList ++ timeoutText r else []

def sidLine (build : Build) (r : Responder) : CString :=
  if build.enableEvents ∧ r.flagSid then sidText r else []

def allowLine (r : Responder) : CString :=
  if r.flagAllowPost then allowText "POST"
  else if r.flagAllowSubUnsub then allowText "SUBSCRIBE, UNSUBSCRIBE"
  else []

def languageLine (r : Responder) : CString :=
  if r.acceptLanguage ≠ [] then languageText r else []

def headerText (build : Build) (r : Responder) (status : Status) (bodylen : Nat) : CString :=
  respheadText build r status bodylen ++ dateLine build ++ timeoutLine build r ++ sidLine build r ++
    allowLine r ++ languageLine r ++ crlf

theorem dateLine_length (bounded : Bounded build r) : (dateLine build).length ≤ 71 := by
  have label : ("Date: ".toList).length = 6 := rfl
  unfold dateLine
  cases dated : build.httpDate with
  | none => exact Nat.zero_le 71
  | some date =>
    have short := (bounded.date date (by rw [dated]; rfl)).1
    unfold dateText
    rw [List.length_append, List.length_append, label, crlf_length]
    omega

theorem timeoutText_length (bounded : Bounded build r) : (timeoutText r).length ≤ 13 := by
  have digits := itoa_length bounded.timeout.1 bounded.timeout.2
  unfold timeoutText
  rw [List.length_append, crlf_length]
  split
  · omega
  · decide

theorem sidText_length (bounded : Bounded build r) : (sidText r).length ≤ 48 := by
  have label : ("SID: ".toList).length = 5 := rfl
  have short := bounded.sid.1
  unfold sidText
  rw [List.length_append, List.length_append, label, crlf_length]
  omega

theorem languageText_length (bounded : Bounded build r) : (languageText r).length ≤ 27 := by
  have label : ("Content-Language: ".toList).length = 18 := rfl
  have short := (language_short bounded.language).1
  unfold languageText
  split
  · have english : ("en".toList).length = 2 := rfl
    simp only [List.length_append, label, english, crlf_length]
    omega
  · simp only [List.length_append, label, crlf_length]
    omega

/-- No answer has both the lines of a subscription and the one of the allowed methods. -/
theorem optional_length (bounded : Bounded build r) :
    (timeoutLine build r).length + (sidLine build r).length + (allowLine r).length ≤ 77 := by
  have label : ("Timeout: Second-".toList).length = 16 := rfl
  have post : (allowText "POST").length = 13 := rfl
  have both : (allowText "SUBSCRIBE, UNSUBSCRIBE").length = 31 := rfl
  have timeout := timeoutText_length bounded
  have sid := sidText_length bounded
  have lines : (timeoutLine build r).length ≤ 29 ∧ (sidLine build r).length ≤ 48 := by
    constructor
    · unfold timeoutLine
      split
      · rw [List.length_append, label]
        omega
      · exact Nat.zero_le 29
    · unfold sidLine
      split
      · exact sid
      · exact Nat.zero_le 48
  have allow : (allowLine r).length ≤ 31 := by
    unfold allowLine
    split
    · omega
    · split
      · omega
      · exact Nat.zero_le 31
  by_cases methods : r.flagAllowPost ∨ r.flagAllowSubUnsub
  · have plain : ¬ (r.flagTimeout = true ∨ r.flagSid = true) := fun either =>
      bounded.apart ⟨either, methods⟩
    push Not at plain
    have noTimeout : timeoutLine build r = [] := by
      unfold timeoutLine
      rw [if_neg fun flags => plain.1 flags.2]
    have noSid : sidLine build r = [] := by
      unfold sidLine
      rw [if_neg fun flags => plain.2 flags.2]
    rw [noTimeout, noSid, List.length_nil]
    omega
  · push Not at methods
    have noAllow : allowLine r = [] := by
      unfold allowLine
      rw [if_neg methods.1, if_neg methods.2]
    rw [noAllow, List.length_nil]
    omega

end lengths

section building
variable {build : Build} {r : Responder} {status : Status} {bodylen n : Nat} {b : OutBuffer}
  {text s : CString}

/-- The buffer holds the text and has room for `n` characters. -/
structure Filled (b : OutBuffer) (n : Nat) (text : CString) : Prop where
  holds : Holds b text
  room : n ≤ b.alloc
  small : n < 2 ^ 31

theorem Filled.snprintf (filled : Filled b n text) (fits : text.length + s.length + 1 ≤ n) :
    Filled (b.snprintf s) n (text ++ s) :=
  have room := filled.room
  have small := filled.small
  ⟨snprintf_holds filled.holds (by omega) (by omega), room, small⟩

theorem Filled.store (filled : Filled b n text) (fits : text.length + s.length ≤ n) :
    Filled (b.store s) n (text ++ s) :=
  have room := filled.room
  have small := filled.small
  ⟨store_holds filled.holds (by omega) (by omega), room, small⟩

theorem Filled.snprintf_if {c : Prop} [Decidable c] (filled : Filled b n text)
    (fits : text.length + (if c then s else []).length + 1 ≤ n) :
    Filled (if c then b.snprintf s else b) n (text ++ if c then s else []) := by
  split
  · rename_i given
    rw [if_pos given] at fits
    exact filled.snprintf fits
  · rw [List.append_nil]
    exact filled

theorem addDate_filled (filled : Filled b n text)
    (fits : text.length + (dateLine build).length + 1 ≤ n) :
    Filled (addDate build b) n (text ++ dateLine build) := by
  unfold addDate
  unfold dateLine at fits ⊢
  cases dated : build.httpDate with
  | none =>
    rw [List.append_nil]
    exact filled
  | some date =>
    rw [dated] at fits
    exact filled.snprintf fits

theorem addTimeout_filled (filled : Filled b n text)
    (fits : text.length + (timeoutLine build r).length + 1 ≤ n) :
    Filled (addTimeout build r b) n (text ++ timeoutLine build r) := by
  unfold addTimeout
  unfold timeoutLine at fits ⊢
  split
  · rename_i given
    rw [if_pos given, List.length_append] at fits
    rw [← List.append_assoc]
    apply Filled.snprintf
    · exact filled.snprintf (by omega)
    · rw [List.length_append]
      omega
  · rw [List.append_nil]
    exact filled

theorem addAllow_filled (filled : Filled b n text)
    (fits : text.length + (allowLine r).length + 1 ≤ n) :
    Filled (addAllow r b) n (text ++ allowLine r) := by
  unfold addAllow
  unfold allowLine at fits ⊢
  split
  · rename_i given
    rw [if_pos given] at fits
    exact filled.snprintf fits
  · rename_i other
    rw [if_neg other] at fits
    exact filled.snprintf_if fits

theorem responseBuffer_room (build : Build) (memory : Int → Char) (bodylen : Nat)
    (resBuf : Option OutBuffer) :
    templen build bodylen ≤ (responseBuffer build memory bodylen resBuf).alloc := by
  unfold responseBuffer
  cases resBuf with
  | none => exact Nat.le_refl _
  | some b =>
    dsimp only
    split
    · exact Nat.le_refl _
    · omega

theorem headerText_length (bounded : Bounded build r) (listed : status ∈ statuses)
    (small : bodylen < 2 ^ 31) :
    (headerText build r status bodylen).length + bodylen < templen build bodylen := by
  have first := respheadText_length bounded listed small
  have date := dateLine_length bounded
  have flags := optional_length bounded
  have language : (languageLine r).length ≤ 27 := by
    unfold languageLine
    split
    · exact languageText_length bounded
    · exact Nat.zero_le 27
  unfold headerText templen
  simp only [List.length_append, crlf_length]
  omega

/-- No text of the header is cut off, and the body has its place behind it. -/
theorem buildHeader_filled (bounded : Bounded build r) (listed : status ∈ statuses)
    (small : templen build bodylen < 2 ^ 31) (memory : Int → Char) (resBuf : Option OutBuffer) :
    Filled (buildHeader build memory r status bodylen resBuf) (templen build bodylen)
      (headerText build r status bodylen) := by
  have body : bodylen < 2 ^ 31 := by
    unfold templen at small
    omega
  have fits := headerText_length bounded listed body
  unfold headerText at fits ⊢
  simp only [List.length_append, crlf_length] at fits
  have start : Filled (responseBuffer build memory bodylen resBuf).rewind (templen build bodylen)
      [] :=
    ⟨rewind_holds _, responseBuffer_room build memory bodylen resBuf, small⟩
  have first := start.snprintf (s := respheadText build r status bodylen)
    (by rw [List.length_nil]; omega)
  rw [List.nil_append] at first
  have dated : Filled (addDate build _) _ (_ ++ dateLine build) := addDate_filled first (by omega)
  have timed : Filled (addTimeout build r _) _ (_ ++ timeoutLine build r) :=
    addTimeout_filled dated (by simp only [List.length_append]; omega)
  have numbered : Filled (addSid build r _) _ (_ ++ sidLine build r) :=
    timed.snprintf_if (by
      have same : (if build.enableEvents ∧ r.flagSid then sidText r else []) =
        sidLine build r := rfl
      rw [same]
      simp only [List.length_append]
      omega)
  have allowed : Filled (addAllow r _) _ (_ ++ allowLine r) :=
    addAllow_filled numbered (by simp only [List.length_append]; omega)
  have spoken : Filled (addLanguage r _) _ (_ ++ languageLine r) :=
    allowed.snprintf_if (by
      have same : (if r.acceptLanguage ≠ [] then languageText r else []) = languageLine r := rfl
      rw [same]
      simp only [List.length_append]
      omega)
  have return' := spoken.store (s := ['\r']) (by
    simp only [List.length_append, List.length_singleton]
    omega)
  have ended := return'.store (s := ['\n']) (by
    simp only [List.length_append, List.length_singleton]
    omega)
  rw [List.append_assoc _ ['\r'] ['\n']] at ended
  have room := ended.room
  have len := ended.holds.len
  unfold buildHeader
  dsimp only
  rw [if_neg]
  · exact ended
  · rw [len]
    simp only [List.length_append, List.length_cons, List.length_nil]
    omega

end building

section reading
variable {line rest : CString} {lines : List CString} {buf : List Char} {i : Nat}

def joined (lines : List CString) : CString := lines.flatMap (· ++ crlf)

theorem joined_cons (line : CString) (lines : List CString) :
    joined (line :: lines) = line ++ '\r' :: '\n' :: joined lines := by
  simp [joined, crlf]

/-- The search passes a line unless an empty line follows. -/
theorem findendheaders_line (plain : '\r' ∉ line) (rest : CString) :
    findendheaders (line ++ '\r' :: '\n' :: rest) =
      if crlf.isPrefixOf rest then some line.length
      else (findendheaders rest).map (· + (line.length + 2)) := by
  induction line with
  | nil =>
    have newline : findendheaders ('\n' :: rest) = (findendheaders rest).map (· + 1) := by
      rw [findendheaders, if_neg (by simp [List.isPrefixOf])]
    have first : "\r\n\r\n".toList.isPrefixOf ('\r' :: '\n' :: rest) = crlf.isPrefixOf rest := by
      simp [List.isPrefixOf, crlf]
    rw [List.nil_append, findendheaders, first, newline, Option.map_map]
    rfl
  | cons c line ih =>
    have other : c ≠ '\r' := by
      rintro rfl
      exact plain List.mem_cons_self
    have later := ih fun member => plain (List.mem_cons_of_mem c member)
    rw [List.cons_append, findendheaders, if_neg (by simp [List.isPrefixOf, Ne.symm other]), later]
    split
    · rfl
    · rw [Option.map_map]
      congr 1

/-- The first empty line is the one behind the lines. -/
theorem findendheaders_joined (some : lines ≠ []) (plain : ∀ line ∈ lines, line ≠ [] ∧ '\r' ∉ line)
    (rest : CString) :
    findendheaders (joined lines ++ (crlf ++ rest)) = Option.some ((joined lines).length - 2) := by
  induction lines with
  | nil => exact absurd rfl some
  | cons line lines ih =>
    have here := plain line List.mem_cons_self
    rw [joined_cons, List.append_assoc, List.cons_append, List.cons_append,
      findendheaders_line here.2]
    cases lines with
    | nil =>
      have ends : crlf.isPrefixOf (joined [] ++ (crlf ++ rest)) = true := by
        simp [joined, crlf, List.isPrefixOf]
      rw [if_pos ends]
      simp [joined]
    | cons next lines =>
      obtain ⟨notEmpty, noReturn⟩ := plain next (by simp)
      have goesOn : crlf.isPrefixOf (joined (next :: lines) ++ (crlf ++ rest)) = false := by
        cases next with
        | nil => exact absurd rfl notEmpty
        | cons c next =>
          have other : '\r' ≠ c := by
            rintro rfl
            exact noReturn List.mem_cons_self
          simp [joined, crlf, List.isPrefixOf, other]
      have later := ih (by simp) fun line member => plain line (List.mem_cons_of_mem _ member)
      rw [goesOn, if_neg (by simp), later, Option.map_some]
      congr 1
      have long : 2 ≤ (joined (next :: lines)).length := by
        rw [joined_cons]
        simp only [List.length_append, List.length_cons]
        omega
      simp only [List.length_append, List.length_cons]
      omega

/-- The line is a Content-Length line. -/
def isLength (line : CString) : Bool := strcaseeq (line.take 15) "Content-Length:".toList

theorem startsWith_line (at_i : buf.drop i = line ++ '\r' :: rest) :
    startsWith buf i "Content-Length:".toList = isLength line := by
  have size : ("Content-Length:".toList).length = 15 := rfl
  unfold startsWith isLength slice
  rw [size, at_i]
  by_cases short : line.length < 15
  · have no : ∀ s : CString, '\r' ∈ s ∨ s.length < 15 →
        strcaseeq s "Content-Length:".toList = false := by
      intro s either
      rw [strcaseeq, decide_eq_false_iff_not]
      intro same
      rcases either with return' | less
      · have member := List.mem_map_of_mem (f := tolower) return'
        rw [same] at member
        exact absurd member (by decide)
      · have lengths := congrArg List.length same
        rw [List.length_map, List.length_map, size] at lengths
        omega
    rw [no, no]
    · exact .inr (by rw [List.length_take]; omega)
    · left
      rw [List.take_append, List.mem_append]
      right
      obtain ⟨k, more⟩ : ∃ k, 15 - line.length = k + 1 := ⟨14 - line.length, by omega⟩
      rw [more, List.take_succ_cons]
      exact List.mem_cons_self
  · rw [List.take_append_of_le_length (by omega)]

theorem parseLine_contentlen (buf : List Char) (h : HttpHeaders) (i : Nat) :
    (parseLine buf h i).reqContentlen =
      match colonOf buf i with
      | none => h.reqContentlen
      | some colon =>
          if startsWith buf i "Content-Length:".toList then contentLength buf colon
          else h.reqContentlen := by
  unfold parseLine
  cases colonOf buf i with
  | none => rfl
  | some colon =>
    dsimp only
    split
    · rfl
    · repeat' split
      all_goals rfl

/-- Any other line leaves the length of the content as it is. -/
theorem parseLine_other (at_i : buf.drop i = line ++ '\r' :: rest) (other : isLength line = false)
    (h : HttpHeaders) :
    (parseLine buf h i).reqContentlen = h.reqContentlen := by
  rw [parseLine_contentlen, startsWith_line at_i, other]
  cases colonOf buf i <;> rfl

theorem nextLine_line (at_i : buf.drop i = line ++ '\r' :: '\n' :: rest) (plain : '\r' ∉ line) :
    nextLine buf i = i + line.length + 2 := by
  have found : crlfAt (line ++ '\r' :: '\n' :: rest) = line.length := by
    clear at_i
    induction line with
    | nil => rfl
    | cons c line ih =>
      have different : '\r' ≠ c := by
        rintro rfl
        exact plain List.mem_cons_self
      rw [List.cons_append, crlfAt, if_neg (by simp [List.isPrefixOf, different]),
        ih fun member => plain (List.mem_cons_of_mem c member), List.length_cons]
  rw [nextLine, at_i, found]

theorem drop_line (at_i : buf.drop i = line ++ '\r' :: '\n' :: rest) :
    buf.drop (i + line.length + 2) = rest := by
  rw [Nat.add_assoc, ← List.drop_drop, at_i, ← List.drop_drop, List.drop_left]
  rfl

theorem colonOf_named {name value : CString} (at_i : buf.drop i = name ++ ':' :: value)
    (plain : ∀ c ∈ name, c ≠ ':' ∧ c ≠ '\r' ∧ c ≠ '\n') :
    colonOf buf i = some (i + name.length) := by
  have stopped : skip (fun c => c ≠ ':' ∧ c ≠ '\r' ∧ c ≠ '\n') buf i = i + name.length := by
    unfold skip
    rw [at_i, List.takeWhile_append_of_pos (by simpa using plain)]
    simp
  have colon : charAt buf (i + name.length) = ':' := by
    have rest := congrArg (List.drop name.length) at_i
    rw [List.drop_drop, List.drop_left] at rest
    have first := congrArg List.head? rest
    rw [List.head?_drop, List.head?_cons] at first
    rw [charAt, List.getD_eq_getElem?_getD, first, Option.getD_some]
  unfold colonOf
  dsimp only
  rw [stopped, if_pos colon]

def lengthLine (bodylen : Nat) : CString := "Content-Length".toList ++ ':' :: ' ' :: utoa bodylen

theorem utoa_plain (n : Nat) : '\r' ∉ utoa n := fun member =>
  absurd (utoa_digits n _ member) (by decide)

theorem lengthLine_some (bodylen : Nat) : lengthLine bodylen ≠ [] := by
  unfold lengthLine
  exact List.append_ne_nil_of_right_ne_nil _ (List.cons_ne_nil _ _)

theorem lengthLine_plain (bodylen : Nat) : '\r' ∉ lengthLine bodylen := by
  unfold lengthLine
  simp only [List.mem_append, List.mem_cons, not_or]
  exact ⟨by decide, by decide, by decide, utoa_plain bodylen⟩

theorem parseLine_length {bodylen : Nat} (at_i : buf.drop i = lengthLine bodylen ++ '\r' :: rest)
    (small : bodylen < 2 ^ 31) (h : HttpHeaders) :
    (parseLine buf h i).reqContentlen = bodylen := by
  have size : ("Content-Length".toList).length = 14 := rfl
  have named : isLength (lengthLine bodylen) = true := by
    have front : (lengthLine bodylen).take 15 = "Content-Length:".toList := by
      unfold lengthLine
      rw [List.take_append, size, List.take_of_length_le (by rw [size]; omega)]
      rfl
    unfold isLength
    rw [front]
    decide
  unfold lengthLine at at_i
  rw [List.append_assoc, List.cons_append, List.cons_append] at at_i
  have colon : colonOf buf i = some (i + 14) := by
    have plain : "Content-Length".toList.all (fun c => c ≠ ':' ∧ c ≠ '\r' ∧ c ≠ '\n') = true := by
      decide
    rw [← size]
    exact colonOf_named at_i fun c member => of_decide_eq_true (List.all_eq_true.mp plain c member)
  have value : buf.drop (i + 14) = ':' :: ' ' :: (utoa bodylen ++ '\r' :: rest) := by
    rw [← List.drop_drop, at_i, ← size, List.drop_left]
  have digits : lengthStart buf (i + 14) = i + 14 + 2 := by
    obtain ⟨d, ds, start, digit⟩ := utoa_start bodylen ('\r' :: rest)
    unfold lengthStart skip
    rw [value, start, List.takeWhile_cons_of_pos (by decide),
      List.takeWhile_cons_of_pos (by decide), List.takeWhile_cons_of_neg (by simp [digit])]
    rfl
  have number : contentLength buf (i + 14) = bodylen := by
    unfold contentLength
    rw [digits, ← List.drop_drop, value]
    have read := @atoi_utoa bodylen small ('\r' :: rest) (by simp [Char.isDigit])
    show (atoi (utoa bodylen ++ '\r' :: rest)).toNat = bodylen
    rw [read]
    rfl
  have line : buf.drop i = lengthLine bodylen ++ '\r' :: rest := by
    unfold lengthLine
    rw [List.append_assoc, List.cons_append, List.cons_append]
    exact at_i
  rw [parseLine_contentlen, startsWith_line line, named, colon]
  exact number

theorem joined_length (lines : List CString) : 2 * lines.length ≤ (joined lines).length := by
  induction lines with
  | nil => exact Nat.le_refl 0
  | cons line lines ih =>
    rw [joined_cons, List.length_append, List.length_cons, List.length_cons, List.length_cons]
    omega

theorem joined_append (front back : List CString) :
    joined (front ++ back) = joined front ++ joined back := by
  simp [joined]

variable {off : Nat}

/-- Lines with other names, and the empty line, do not change the length of the content. -/
theorem parse_others (others : ∀ line ∈ lines, isLength line = false ∧ '\r' ∉ line)
    (at_i : buf.drop i = joined lines ++ (crlf ++ rest))
    (ends : i + (joined lines).length + 2 = off) (fuel : Nat) (h : HttpHeaders) :
    ((lineStarts buf off fuel i).foldl (parseLine buf) h).reqContentlen = h.reqContentlen := by
  induction lines generalizing i fuel h with
  | nil =>
    cases fuel with
    | zero => rfl
    | succ fuel =>
      have here : buf.drop i = [] ++ '\r' :: '\n' :: rest := at_i
      have past : lineStarts buf off fuel (nextLine buf i) = [] := by
        rw [nextLine_line here (by simp)]
        cases fuel with
        | zero => rfl
        | succ fuel => rw [lineStarts, if_neg (by simp [joined] at ends ⊢; omega)]
      rw [lineStarts, if_pos (by omega), past, List.foldl_cons, List.foldl_nil]
      exact parseLine_other here rfl h
  | cons line lines ih =>
    cases fuel with
    | zero => rfl
    | succ fuel =>
      obtain ⟨other, plain⟩ := others line List.mem_cons_self
      rw [joined_cons, List.append_assoc, List.cons_append, List.cons_append] at at_i
      rw [joined_cons, List.length_append, List.length_cons, List.length_cons] at ends
      rw [lineStarts, if_pos (by omega), List.foldl_cons, nextLine_line at_i plain,
        ih (fun l member => others l (List.mem_cons_of_mem line member)) (drop_line at_i)
          (by omega)]
      exact parseLine_other at_i other h

/-- The Content-Length line is the only one whose value counts, whatever is before it. -/
theorem parse_length {before after : List CString} {bodylen : Nat} (small : bodylen < 2 ^ 31)
    (plain : ∀ line ∈ before, '\r' ∉ line)
    (others : ∀ line ∈ after, isLength line = false ∧ '\r' ∉ line)
    (at_i : buf.drop i = joined (before ++ lengthLine bodylen :: after) ++ (crlf ++ rest))
    (ends : i + (joined (before ++ lengthLine bodylen :: after)).length + 2 = off)
    {fuel : Nat} (enough : before.length < fuel) (h : HttpHeaders) :
    ((lineStarts buf off fuel i).foldl (parseLine buf) h).reqContentlen = bodylen := by
  induction before generalizing i fuel h with
  | nil =>
    obtain ⟨fuel, rfl⟩ := Nat.exists_eq_succ_of_ne_zero (Nat.ne_of_gt enough)
    have digits := lengthLine_plain bodylen
    rw [List.nil_append, joined_cons, List.append_assoc, List.cons_append, List.cons_append] at at_i
    rw [List.nil_append, joined_cons, List.length_append, List.length_cons,
      List.length_cons] at ends
    rw [lineStarts, if_pos (by omega), List.foldl_cons, nextLine_line at_i digits,
      parse_others others (drop_line at_i) (by omega)]
    exact parseLine_length at_i small h
  | cons line before ih =>
    obtain ⟨fuel, rfl⟩ := Nat.exists_eq_succ_of_ne_zero (Nat.ne_of_gt (Nat.zero_lt_of_lt enough))
    rw [List.cons_append, joined_cons, List.append_assoc, List.cons_append,
      List.cons_append] at at_i
    rw [List.cons_append, joined_cons, List.length_append, List.length_cons,
      List.length_cons] at ends
    rw [List.length_cons] at enough
    rw [lineStarts, if_pos (by omega), List.foldl_cons,
      nextLine_line at_i (plain line List.mem_cons_self),
      ih (fun l member => plain l (List.mem_cons_of_mem line member)) (drop_line at_i) (by omega)
        (by omega)]

end reading

section framing
variable {build : Build} {r : Responder} {status : Status}

def linesBefore (r : Responder) (status : Status) : List CString :=
  [statusLine r status, "Content-Type: ".toList ++ contentType r, "Connection: close".toList]

def linesAfter (build : Build) (r : Responder) : List CString :=
  ["Server: ".toList ++ build.serverString, "Ext:".toList] ++
  build.httpDate.toList.map ("Date: ".toList ++ ·) ++
  (if build.enableEvents ∧ r.flagTimeout then
    ["Timeout: Second-".toList ++
      (if r.reqTimeout ≠ 0 then itoa r.reqTimeout else "infinite".toList)]
  else []) ++
  (if build.enableEvents ∧ r.flagSid then ["SID: ".toList ++ r.resSID] else []) ++
  (if r.flagAllowPost then ["Allow: ".toList ++ "POST".toList]
  else if r.flagAllowSubUnsub then ["Allow: ".toList ++ "SUBSCRIBE, UNSUBSCRIBE".toList]
  else []) ++
  (if r.acceptLanguage ≠ [] then
    ["Content-Language: ".toList ++
      (if r.acceptLanguage.head? = some '*' then "en".toList else r.acceptLanguage)]
  else [])

theorem joined_single (line : CString) : joined [line] = line ++ crlf := by simp [joined]

theorem respheadText_lines (build : Build) (r : Responder) (status : Status) (bodylen : Nat) :
    respheadText build r status bodylen =
      joined (linesBefore r status ++ [lengthLine bodylen] ++
        ["Server: ".toList ++ build.serverString, "Ext:".toList]) := by
  have label : "Content-Length: ".toList = "Content-Length".toList ++ [':', ' '] := by decide
  unfold respheadText linesBefore lengthLine
  rw [label]
  simp [joined, List.append_assoc]

theorem joined_if {c : Prop} [Decidable c] (line : CString) :
    joined (if c then [line] else []) = if c then line ++ crlf else [] := by
  split
  · exact joined_single line
  · rfl

theorem dateLine_joined (build : Build) :
    dateLine build = joined (build.httpDate.toList.map ("Date: ".toList ++ ·)) := by
  unfold dateLine
  cases build.httpDate with
  | none => rfl
  | some date => exact (joined_single _).symm

theorem allowLine_joined (r : Responder) :
    allowLine r =
      joined (if r.flagAllowPost then ["Allow: ".toList ++ "POST".toList]
        else if r.flagAllowSubUnsub then ["Allow: ".toList ++ "SUBSCRIBE, UNSUBSCRIBE".toList]
        else []) := by
  unfold allowLine
  split
  · exact (joined_single _).symm
  · exact (joined_if _).symm

/-- The header is a list of lines and an empty line. -/
theorem headerText_lines (build : Build) (r : Responder) (status : Status) (bodylen : Nat) :
    headerText build r status bodylen =
      joined (linesBefore r status ++ lengthLine bodylen :: linesAfter build r) ++ crlf := by
  have single : lengthLine bodylen :: linesAfter build r =
      [lengthLine bodylen] ++ linesAfter build r := rfl
  unfold headerText
  rw [single, respheadText_lines, dateLine_joined, allowLine_joined]
  unfold timeoutLine sidLine languageLine linesAfter timeoutText sidText languageText
  simp only [joined_append, joined_if, List.append_assoc]

/-- A line whose label differs from Content-Length in its first characters is another one. -/
theorem isLength_label {label : CString} (m : Nat) (inside : m ≤ label.length) (short : m ≤ 15)
    (differs : strcaseeq (label.take m) ("Content-Length:".toList.take m) = false)
    (value : CString) : isLength (label ++ value) = false := by
  unfold isLength
  rw [strcaseeq, decide_eq_false_iff_not] at differs ⊢
  intro same
  apply differs
  have fronts := congrArg (List.take m) same
  rw [← List.map_take, ← List.map_take, List.take_take, Nat.min_eq_left short,
    List.take_append_of_le_length inside] at fronts
  exact fronts

/-- A line of the header that is not its Content-Length. -/
def Other (line : CString) : Prop := line ≠ [] ∧ isLength line = false ∧ '\r' ∉ line

theorem other_label {label value : CString} (m : Nat) (given : label ≠ [] ∧ '\r' ∉ label)
    (inside : m ≤ label.length ∧ m ≤ 15)
    (differs : strcaseeq (label.take m) ("Content-Length:".toList.take m) = false)
    (plain : '\r' ∉ value) : Other (label ++ value) := by
  refine ⟨by simp [given.1], isLength_label m inside.1 inside.2 differs value, ?_⟩
  rw [List.mem_append]
  rintro (first | second)
  · exact given.2 first
  · exact plain second

theorem itoa_plain (n : Int) : '\r' ∉ itoa n := by
  unfold itoa
  split
  · rw [List.mem_cons]
    rintro (sign | digit)
    · exact absurd sign (by decide)
    · exact utoa_plain _ digit
  · exact utoa_plain _

theorem mem_if {c : Prop} [Decidable c] {line l : CString} (member : l ∈ if c then [line] else []) :
    l = line := by
  split at member
  · exact List.mem_singleton.mp member
  · exact absurd member List.not_mem_nil

theorem linesBefore_plain (bounded : Bounded build r) (listed : status ∈ statuses) :
    ∀ line ∈ linesBefore r status, line ≠ [] ∧ '\r' ∉ line := by
  intro line member
  simp only [linesBefore, List.mem_cons, List.not_mem_nil, or_false] at member
  rcases member with rfl | rfl | rfl
  · refine ⟨by simp [statusLine], ?_⟩
    simp only [statusLine, List.mem_append, List.mem_cons, not_or]
    exact ⟨⟨(version_short bounded.version).2, by decide, utoa_plain _⟩, by decide,
      (statuses_short status listed).2.2⟩
  · have type : '\r' ∉ contentType r := by
      unfold contentType
      split
      · decide
      · decide
    refine ⟨by simp, ?_⟩
    rw [List.mem_append]
    rintro (first | second)
    · exact absurd first (by decide)
    · exact type second
  · decide

theorem linesAfter_other (bounded : Bounded build r) : ∀ line ∈ linesAfter build r, Other line := by
  intro line member
  simp only [linesAfter, List.mem_append] at member
  rcases member with ((((fixed | date) | timeout) | sid) | allow) | language
  · simp only [List.mem_cons, List.not_mem_nil, or_false] at fixed
    rcases fixed with rfl | rfl
    · exact other_label 1 (by decide) (by decide) (by decide) bounded.server
    · rw [← List.append_nil "Ext:".toList]
      exact other_label 1 (by decide) (by decide) (by decide) List.not_mem_nil
  · obtain ⟨given, dated, rfl⟩ := List.mem_map.mp date
    exact other_label 1 (by decide) (by decide) (by decide)
      (bounded.date given (Option.mem_toList.mp dated)).2
  · obtain rfl := mem_if timeout
    apply other_label 1 (by decide) (by decide) (by decide)
    split
    · exact itoa_plain _
    · decide
  · obtain rfl := mem_if sid
    exact other_label 1 (by decide) (by decide) (by decide) bounded.sid.2
  · split at allow
    · obtain rfl := List.mem_singleton.mp allow
      exact other_label 1 (by decide) (by decide) (by decide) (by decide)
    · obtain rfl := mem_if allow
      exact other_label 1 (by decide) (by decide) (by decide) (by decide)
  · obtain rfl := mem_if language
    -- the label differs from Content-Length in its tenth character only
    apply other_label 10 (by decide) (by decide) (by decide)
    split
    · decide
    · exact (language_short bounded.language).2

/-- The buffer holds a header and a body, nothing was written outside of it, and a reader that looks
    for the empty line and for the Content-Length gets the body. -/
structure Framed (b : OutBuffer) (header body : CString) : Prop where
  contents : b.contents = header ++ body
  inside : ∀ w ∈ b.writes, w.Inside
  ends : (findendheaders b.contents).map (· + 4) = some header.length
  length : (parseHttpHeaders b.contents header.length .none).reqContentlen = body.length

theorem framed {b : OutBuffer} {n : Nat} {body : CString} (bounded : Bounded build r)
    (listed : status ∈ statuses) (small : body.length < 2 ^ 31)
    (filled : Filled b n (headerText build r status body.length ++ body)) :
    Framed b (headerText build r status body.length) body := by
  have contents := holds_contents filled.holds
  have before := linesBefore_plain bounded listed
  have after := linesAfter_other bounded
  have lines := headerText_lines build r status body.length
  have three : (linesBefore r status).length = 3 := rfl
  have long := joined_length (linesBefore r status ++ lengthLine body.length :: linesAfter build r)
  rw [List.length_append, List.length_cons, three] at long
  have plain : ∀ line ∈ linesBefore r status ++ lengthLine body.length :: linesAfter build r,
      line ≠ [] ∧ '\r' ∉ line := by
    intro line member
    rcases List.mem_append.mp member with first | rest
    · exact before line first
    · rcases List.mem_cons.mp rest with rfl | last
      · exact ⟨lengthLine_some _, lengthLine_plain _⟩
      · exact ⟨(after line last).1, (after line last).2.2⟩
  have found := findendheaders_joined (List.append_ne_nil_of_right_ne_nil _ (List.cons_ne_nil _ _))
    plain body
  refine ⟨contents, filled.holds.inside, ?_, ?_⟩
  · have same : (joined (linesBefore r status ++ lengthLine body.length ::
        linesAfter build r)).length - 2 + 4 =
        (joined (linesBefore r status ++ lengthLine body.length ::
          linesAfter build r)).length + 2 := by
      omega
    rw [contents, lines, List.append_assoc, found, Option.map_some, List.length_append, crlf_length,
      same]
  · have at_0 : (headerText build r status body.length ++ body).drop 0 =
        joined (linesBefore r status ++ lengthLine body.length :: linesAfter build r) ++
          (crlf ++ body) := by
      rw [List.drop_zero, lines, List.append_assoc]
    have ends : 0 + (joined (linesBefore r status ++ lengthLine body.length ::
        linesAfter build r)).length + 2 = (headerText build r status body.length).length := by
      rw [lines, List.length_append, crlf_length]
      omega
    have enough : (linesBefore r status).length <
        (headerText build r status body.length).length := by
      rw [three]
      omega
    rw [contents]
    exact parse_length small (fun line member => (before line member).2)
      (fun line member => (after line member).2) at_0 ends enough .none

/-- Every answer is framed, whatever is left in the buffer from the answer before. -/
theorem answers_framed (bounded : Bounded build r) (memory : Int → Char)
    (resBuf : Option OutBuffer) :
    (∀ status ∈ statuses, ∀ body : Option CString, templen build (body.getD []).length < 2 ^ 31 →
      Framed (buildResp2 build memory r status body resBuf)
        (headerText build r status (body.getD []).length) (body.getD [])) ∧
      ∀ body, templen build (beforebody ++ body ++ afterbody).length < 2 ^ 31 →
        Framed (buildSoapResp build memory r body resBuf)
          (headerText build r ⟨200, "OK".toList⟩ (beforebody ++ body ++ afterbody).length)
          (beforebody ++ body ++ afterbody) := by
  have bodies : ∀ bodylen, templen build bodylen < 2 ^ 31 → bodylen < 2 ^ 31 := by
    intro bodylen small
    unfold templen at small
    omega
  constructor
  · intro status listed body small
    have filled := buildHeader_filled bounded listed small memory resBuf
    have fits := headerText_length bounded listed (bodies _ small)
    have built : Filled (buildResp2 build memory r status body resBuf)
        (templen build (body.getD []).length)
        (headerText build r status (body.getD []).length ++ body.getD []) := by
      unfold buildResp2
      cases body with
      | none =>
        rw [Option.getD_none, List.append_nil]
        exact filled
      | some body => exact filled.store (Nat.le_of_lt fits)
    exact framed bounded listed (bodies _ small) built
  · intro body small
    have listed : ⟨200, "OK".toList⟩ ∈ statuses := List.mem_cons_self
    have sum : (beforebody ++ body ++ afterbody).length =
        beforebody.length + afterbody.length + body.length := by
      rw [List.length_append, List.length_append]
      omega
    have filled := buildHeader_filled bounded listed small memory resBuf
    have fits := headerText_length bounded listed (bodies _ small)
    apply framed bounded listed (bodies _ small)
    unfold buildSoapResp
    rw [sum] at filled fits ⊢
    rw [← List.append_assoc, ← List.append_assoc]
    have first := filled.store (s := beforebody) (by omega)
    have second := first.store (s := body) (by rw [List.length_append]; omega)
    exact second.store (by rw [List.length_append, List.length_append]; omega)

/-- A build with the date and the events. -/
def dated : Build :=
  { serverString := "Linux UPnP/1.1 MiniUPnPd/2.2.1".toList
    httpDate := some "Sat, 01 Jan 2022 00:00:00 GMT".toList
    enableEvents := true }

def subscriber : Responder :=
  { httpVer := (queryLine "SUBSCRIBE /evt HTTP/1.1\r\n\r\n".toList).httpVer
    acceptLanguage := firstLanguage "fr, en".toList
    flagHtml := false
    flagTimeout := true
    flagSid := true
    flagAllowPost := false
    flagAllowSubUnsub := false
    reqTimeout := 1800
    resSID := "uuid:00000000-0000-0000-0000-000000000000".toList }

theorem subscriber_bounded : Bounded dated subscriber where
  version := ⟨_, rfl⟩
  language := ⟨_, rfl⟩
  sid := by decide
  timeout := by decide
  date := by decide
  server := by decide
  apart := by decide

theorem dated_small {bodylen : Nat} (short : bodylen < 2 ^ 30) :
    templen dated bodylen < 2 ^ 31 := by
  have format : (httpresphead dated).length = 113 := rfl
  unfold templen
  omega

theorem envelope_length : (beforebody ++ [] ++ afterbody).length = 179 := by
  have declaration : ("<?xml version=\"1.0\"?>\r\n".toList).length = 23 := rfl
  have envelope :
      ("<s:Envelope xmlns:s=\"http://schemas.xmlsoap.org/soap/envelope/\" ".toList).length = 64 :=
    rfl
  have encoding : ("s:encodingStyle=\"http://schemas.xmlsoap.org/soap/encoding/\">".toList).length =
    60 := rfl
  have start : ("<s:Body>".toList).length = 8 := rfl
  have after : ("</s:Body></s:Envelope>\r\n".toList).length = 24 := rfl
  unfold beforebody afterbody
  simp only [List.length_append, List.length_nil, declaration, envelope, encoding, start, after]

theorem subscriber_framed :
    Framed (buildResp2 dated (fun _ => '\x00') subscriber ⟨200, "OK".toList⟩ none none)
        (headerText dated subscriber ⟨200, "OK".toList⟩ 0) [] ∧
      Framed (buildSoapResp dated (fun _ => '\x00') subscriber [] none)
        (headerText dated subscriber ⟨200, "OK".toList⟩ (beforebody ++ [] ++ afterbody).length)
        (beforebody ++ [] ++ afterbody) := by
  have both := answers_framed subscriber_bounded (fun _ => '\x00') none
  exact ⟨both.1 ⟨200, "OK".toList⟩ List.mem_cons_self none (dated_small (by decide)),
    both.2 [] (dated_small (by rw [envelope_length]; decide))⟩

end framing

end ResponseHeaders

import Mathlib.Data.List.TakeDrop
import MiniUPnPd.UpnpHttpSpec

/-!
What a client gets to read on its connection: the texts that `Process_upnphttp` builds for it
and the bytes that its calls of `send` take, over all calls of a run.
-/
namespace HttpDelivery
open CText UpnpHttp UpnpHttpSpec

/-- The bytes that the calls of `send` in the loop of `sendResp` take. -/
def sendBytes : List SendResult → Connection → List Char
  | [], c => c.resBuf.drop c.resSent
  | result :: sends, c =>
      if c.resSent < c.resBuf.length then
        match result with
        | .interrupted => sendBytes sends c
        | .again => []
        | .failed => []
        | .sent n =>
            if n = 0 then []
            else slice c.resBuf c.resSent n ++ sendBytes sends { c with resSent := c.resSent + n }
      else []

/-- The loop is left because of an error. -/
def sendFails : List SendResult → Connection → Bool
  | [], _ => false
  | result :: sends, c =>
      if c.resSent < c.resBuf.length then
        match result with
        | .interrupted => sendFails sends c
        | .again => false
        | .failed => true
        | .sent n => if n = 0 then true else sendFails sends { c with resSent := c.resSent + n }
      else false

/-- What one call puts out: the 100 Continue responses and the final responses that it builds,
    the bytes that the socket takes, and whether a send failed. -/
structure Output where
  continues : List (List Char)
  answers : List (List Char)
  bytes : List Char
  failed : Bool

def Output.nothing : Output := { continues := [], answers := [], bytes := [], failed := false }

def loaded (c : Connection) (text : List Char) : Connection :=
  { c with resBuf := text, resSent := 0 }

def answerOutput (env : HttpEnv) (sends : List SendResult) (c : Connection) : Output :=
  { continues := []
    answers := [env.response c]
    bytes := sendBytes sends (loaded c (env.response c))
    failed := sendFails sends (loaded c (env.response c)) }

/-- The rest of a text is sent. -/
def restOutput (sends : List SendResult) (c : Connection) : Output :=
  { continues := [], answers := [], bytes := sendBytes sends c, failed := sendFails sends c }

def continueOutput (sends : List SendResult) (c : Connection) : Output :=
  let sending := { loaded c (continueText c) with state := .sendingContinue }
  { continues := [continueText c]
    answers := []
    bytes := sendBytes sends sending
    failed := sendFails sends sending }

def postOutput (env : HttpEnv) (sends : List SendResult) (c : Connection) : Output :=
  if bodyReceived c then answerOutput env sends c
  else if c.headers.flagContinue then continueOutput sends c
  else .nothing

def queryOutput (env : HttpEnv) (sends : List SendResult) (contentoff : Nat) (c : Connection) :
    Output :=
  let c := readHeaders contentoff c
  if postAccepted env c then postOutput env sends c else answerOutput env sends c

def searchOutput (env : HttpEnv) (sends : List SendResult) (c : Connection) : Output :=
  match findendheaders c.reqBuf with
  | none => .nothing
  | some endheaders => queryOutput env sends (endheaders + 4) c

/-- The output of a call of `processUpnphttp`, branch by branch. -/
def processOutput (env : HttpEnv) (event : Event) (c : Connection) : Output :=
  match c.state with
  | .waitingForHttpRequest =>
      match event.recv with
      | .again | .failed | .closed => .nothing
      | .outOfMemory => searchOutput env event.sends { c with state := .toDelete }
      | .data chunk => searchOutput env event.sends (c.receive chunk)
  | .waitingForHttpContent =>
      match event.recv with
      | .again | .failed | .closed | .outOfMemory => .nothing
      | .data chunk =>
          let c := c.receive chunk
          if bodyReceived c then postOutput env event.sends c else .nothing
  | .sendingContinue => restOutput event.sends c
  | .sendingAndClosing => restOutput event.sends c
  | .toDelete => .nothing

/-- A connection with what it has put out, and the actions executed for it. -/
structure Session where
  conn : Connection
  continues : List (List Char)
  answers : List (List Char)
  bytes : List Char
  failed : Bool
  calls : List SoapCall

def Session.opened (socket : Int) : Session :=
  { conn := .opened socket, continues := [], answers := [], bytes := [], failed := false
    calls := [] }

def Session.after (s : Session) (result : Connection × Option SoapCall) (out : Output) :
    Session :=
  { conn := result.1
    continues := s.continues ++ out.continues
    answers := s.answers ++ out.answers
    bytes := s.bytes ++ out.bytes
    failed := s.failed || out.failed
    calls := s.calls ++ result.2.toList }

def Session.step (env : HttpEnv) (s : Session) (event : Event) : Session :=
  s.after (processUpnphttp env event s.conn) (processOutput env event s.conn)

def session (env : HttpEnv) (socket : Int) (events : List Event) : Session :=
  events.foldl (Session.step env) (.opened socket)

section sending
variable (sends : List SendResult) (c : Connection)

/-- The loop goes on in the text where it was, and stops early only when it has to wait or a
    send fails. -/
theorem sendResp_takes :
    ∃ finished sent, sendResp sends c = (finished, { c with resSent := sent }) ∧
      c.resBuf.take c.resSent ++ sendBytes sends c = c.resBuf.take sent ∧
      (finished = false → sendFails sends c = false) ∧
      (finished = true → (sendFails sends c = false ↔ c.resBuf.length ≤ sent)) := by
  induction sends generalizing c with
  | nil =>
    have all : c.resBuf.length ≤ max c.resSent c.resBuf.length := le_max_right _ _
    refine ⟨true, max c.resSent c.resBuf.length, rfl, ?_, by simp, fun _ => ⟨fun _ => all, ?_⟩⟩
    · rw [sendBytes, List.take_append_drop, List.take_of_length_le all]
    · exact fun _ => rfl
  | cons result sends ih =>
    by_cases more : c.resSent < c.resBuf.length
    · unfold sendResp sendBytes sendFails
      simp only [if_pos more]
      cases result with
      | interrupted => exact ih c
      | again => exact ⟨false, c.resSent, rfl, by simp, by simp, by simp⟩
      | failed => exact ⟨true, c.resSent, rfl, by simp, by simp, by simp [more]⟩
      | sent n =>
        by_cases zero : n = 0
        · simp only [if_pos zero]
          exact ⟨true, c.resSent, rfl, by simp, by simp, by simp [more]⟩
        · simp only [if_neg zero]
          obtain ⟨finished, sent, done, taken, waits, ends⟩ :=
            ih { c with resSent := c.resSent + n }
          refine ⟨finished, sent, done, ?_, waits, ends⟩
          rw [← taken, slice, ← List.append_assoc, List.take_add]
    · unfold sendResp sendBytes sendFails
      simp only [if_neg more]
      exact ⟨true, c.resSent, rfl, by simp, by simp, by simp; omega⟩

end sending

/-- What the socket took of a 100 Continue response is all of it, unless a send failed. -/
structure Interim (s : Session) (part : List Char) : Prop where
  once : s.continues.length ≤ 1
  sent : part <+: s.continues.flatten
  whole : s.failed = false ↔ part = s.continues.flatten

/-- The request is there as far as its answer needs it. -/
def RequestRead (env : HttpEnv) (c : Connection) : Prop :=
  bodyReceived c = true ∨ postAccepted env c = false

/-- How far the connection has come, with the bytes that the client has got. -/
inductive Stage (env : HttpEnv) (s : Session) : Prop where
  | request (here : s.conn.state = .waitingForHttpRequest)
      (unread : findendheaders s.conn.reqBuf = none) (continues : s.continues = [])
      (bytes : s.bytes = []) (good : s.failed = false) (answers : s.answers = [])
      (calls : s.calls = [])
  | continuing (here : s.conn.state = .sendingContinue) (continues : s.continues = [s.conn.resBuf])
      (bytes : s.bytes = s.conn.resBuf.take s.conn.resSent) (good : s.failed = false)
      (answers : s.answers = []) (calls : s.calls = [])
  | content (here : s.conn.state = .waitingForHttpContent) (interim : Interim s s.bytes)
      (answers : s.answers = []) (calls : s.calls = [])
  | closing (here : s.conn.state = .sendingAndClosing) (part : List Char)
      (interim : Interim s part) (answers : s.answers = [s.conn.resBuf])
      (bytes : s.bytes = part ++ s.conn.resBuf.take s.conn.resSent)
      (calls : s.calls.length ≤ 1) (read : RequestRead env s.conn)
  | refused (here : s.conn.state = .toDelete) (once : s.continues.length ≤ 1)
      (bytes : s.bytes <+: s.continues.flatten) (answers : s.answers = []) (calls : s.calls = [])
  | answered (here : s.conn.state = .toDelete) (part : List Char) (once : s.continues.length ≤ 1)
      (sent : part <+: s.continues.flatten) (answers : s.answers = [s.conn.resBuf])
      (bytes : s.bytes = part ++ s.conn.resBuf.take s.conn.resSent)
      (whole : s.failed = false ↔
        part = s.continues.flatten ∧ s.conn.resBuf.length ≤ s.conn.resSent)
      (calls : s.calls.length ≤ 1) (read : RequestRead env s.conn)

section steps
variable {env : HttpEnv} {s : Session} {sends : List SendResult}

theorem after_nothing (s : Session) (c : Connection) :
    s.after (c, none) .nothing = { s with conn := c } := by
  simp [Session.after, Output.nothing]

/-- One more round of sending the answer. -/
theorem close_stage (part : List Char) (c : Connection) (interim : Interim s part)
    (answers : s.answers = [c.resBuf]) (bytes : s.bytes = part ++ c.resBuf.take c.resSent)
    (calls : s.calls.length ≤ 1) (read : RequestRead env c) :
    Stage env (s.after (sendRespAndClose sends c, none) (restOutput sends c)) := by
  obtain ⟨finished, sent, done, taken, waits, ends⟩ := sendResp_takes sends c
  have all : s.bytes ++ sendBytes sends c = part ++ c.resBuf.take sent := by
    rw [bytes, List.append_assoc, taken]
  cases finished with
  | false =>
    have good := waits rfl
    refine .closing ?_ part ?_ ?_ ?_ ?_ ?_
    · simp [Session.after, sendRespAndClose, done]
    · constructor
      · simpa [Session.after, restOutput] using interim.once
      · simpa [Session.after, restOutput] using interim.sent
      · simpa [Session.after, restOutput, good] using interim.whole
    · simpa [Session.after, restOutput, sendRespAndClose, done] using answers
    · simpa [Session.after, restOutput, sendRespAndClose, done] using all
    · simpa [Session.after] using calls
    · simp only [Session.after, sendRespAndClose, done]
      exact read
  | true =>
    have complete := ends rfl
    refine .answered ?_ part ?_ ?_ ?_ ?_ ?_ ?_ ?_
    · simp [Session.after, sendRespAndClose, done, closeSocket]
    · simpa [Session.after, restOutput] using interim.once
    · simpa [Session.after, restOutput] using interim.sent
    · simpa [Session.after, restOutput, sendRespAndClose, done, closeSocket] using answers
    · simpa [Session.after, restOutput, sendRespAndClose, done, closeSocket] using all
    · simp [Session.after, restOutput, sendRespAndClose, done, closeSocket, complete,
        interim.whole]
    · simpa [Session.after] using calls
    · simp only [Session.after, sendRespAndClose, done, closeSocket]
      exact read

/-- The answer to a request, with the first round of sending it. -/
theorem answer_stage (c : Connection) (call : Option SoapCall) (interim : Interim s s.bytes)
    (answers : s.answers = []) (calls : s.calls = []) (read : RequestRead env c) :
    Stage env (s.after (respondAndClose env sends c, call) (answerOutput env sends c)) := by
  let built : Session :=
    { s with answers := [env.response c], calls := call.toList }
  have same : s.after (respondAndClose env sends c, call) (answerOutput env sends c) =
      built.after (sendRespAndClose sends (loaded c (env.response c)), none)
        (restOutput sends (loaded c (env.response c))) := by
    simp [Session.after, respondAndClose, answerOutput, restOutput, built, loaded, answers, calls]
  rw [same]
  apply close_stage s.bytes
  · exact ⟨interim.once, interim.sent, interim.whole⟩
  · rfl
  · simp [built, loaded]
  · cases call <;> simp [built]
  · exact read

/-- A POST whose body may still be missing. -/
theorem post_stage (c : Connection) (continues : s.continues = []) (bytes : s.bytes = [])
    (good : s.failed = false) (answers : s.answers = []) (calls : s.calls = []) :
    Stage env (s.after (processHTTPPOST env sends c) (postOutput env sends c)) := by
  have interim : Interim s s.bytes := by
    constructor
    · simp [continues]
    · simp [bytes]
    · simp [bytes, good, continues]
  unfold processHTTPPOST postOutput
  split
  · rename_i received
    split
    · exact answer_stage c _ interim answers calls (.inl received)
    · exact answer_stage c none interim answers calls (.inl received)
  · split
    · obtain ⟨finished, sent, done, taken, waits, ends⟩ := sendResp_takes sends
        { loaded c (continueText c) with state := .sendingContinue }
      simp only [loaded, List.take_zero, List.nil_append] at done taken waits ends
      cases finished with
      | false =>
        apply Stage.continuing
        · simp [Session.after, done]
        · simp [Session.after, done, continueOutput, continues]
        · simp [Session.after, done, continueOutput, loaded, bytes, taken]
        · simpa [Session.after, continueOutput, loaded, good] using waits rfl
        · simp [Session.after, continueOutput, answers]
        · simp [Session.after, done, calls]
      | true =>
        apply Stage.content
        · simp [Session.after, done]
        · constructor
          · simp [Session.after, continueOutput, continues]
          · simpa [Session.after, continueOutput, loaded, continues, bytes, taken] using
              List.take_prefix sent (continueText c)
          · simp only [Session.after, continueOutput, loaded, continues, bytes, good, taken,
              Bool.false_or, List.nil_append, List.flatten_singleton, List.take_eq_self_iff]
            exact ends rfl
        · simp [Session.after, continueOutput, answers]
        · simp [Session.after, done, calls]
    · rw [after_nothing]
      exact .content rfl ⟨interim.once, interim.sent, interim.whole⟩ answers calls

theorem query_stage (contentoff : Nat) (c : Connection) (continues : s.continues = [])
    (bytes : s.bytes = []) (good : s.failed = false) (answers : s.answers = [])
    (calls : s.calls = []) :
    Stage env (s.after (processHttpQuery env sends contentoff c)
      (queryOutput env sends contentoff c)) := by
  unfold processHttpQuery queryOutput
  dsimp only
  split
  · exact post_stage _ continues bytes good answers calls
  · rename_i other
    have interim : Interim s s.bytes := by
      constructor
      · simp [continues]
      · simp [bytes]
      · simp [bytes, good, continues]
    exact answer_stage _ none interim answers calls (.inr (by simpa using other))

/-- One call of `Process_upnphttp`. -/
theorem step_stage (event : Event) (stage : Stage env s) : Stage env (s.step env event) := by
  unfold Session.step
  cases stage with
  | request here unread continues bytes good answers calls =>
    have again (c : Connection) (state : c.state = .waitingForHttpRequest)
        (none : findendheaders c.reqBuf = none) : Stage env { s with conn := c } :=
      .request state none continues bytes good answers calls
    have gone : Stage env { s with conn := { s.conn with state := .toDelete } } := by
      apply Stage.refused
      · rfl
      · simp [continues]
      · simp [bytes]
      · exact answers
      · exact calls
    unfold processUpnphttp processOutput
    simp only [here]
    cases event.recv with
    | again =>
      simp only [after_nothing]
      exact again s.conn here unread
    | failed =>
      simp only [after_nothing]
      exact gone
    | closed =>
      simp only [after_nothing]
      exact gone
    | outOfMemory =>
      simp only [searchHeaders, searchOutput, unread, after_nothing]
      exact gone
    | data chunk =>
      cases found : findendheaders (s.conn.receive chunk).reqBuf with
      | none =>
        simp only [searchHeaders, searchOutput, found, after_nothing]
        exact again _ here found
      | some endheaders =>
        simp only [searchHeaders, searchOutput, found]
        exact query_stage _ _ continues bytes good answers calls
  | continuing here continues bytes good answers calls =>
    obtain ⟨finished, sent, done, taken, waits, ends⟩ := sendResp_takes event.sends s.conn
    have all : s.bytes ++ sendBytes event.sends s.conn = s.conn.resBuf.take sent := by
      rw [bytes, taken]
    unfold processUpnphttp processOutput
    simp only [here, done]
    cases finished with
    | false =>
      apply Stage.continuing
      · simp [Session.after]
      · simpa [Session.after, restOutput] using continues
      · simpa [Session.after, restOutput] using all
      · simpa [Session.after, restOutput, good] using waits rfl
      · simpa [Session.after, restOutput] using answers
      · simpa [Session.after] using calls
    | true =>
      apply Stage.content
      · simp [Session.after]
      · constructor
        · simp [Session.after, restOutput, continues]
        · simpa [Session.after, restOutput, all, continues] using
            List.take_prefix sent s.conn.resBuf
        · simp only [Session.after, restOutput, all, continues, good, Bool.false_or,
            List.append_nil, List.flatten_singleton, List.take_eq_self_iff]
          exact ends rfl
      · simpa [Session.after, restOutput] using answers
      · simpa [Session.after] using calls
  | content here interim answers calls =>
    have gone : Stage env { s with conn := { s.conn with state := .toDelete } } :=
      .refused rfl interim.once interim.sent answers calls
    unfold processUpnphttp processOutput
    simp only [here]
    cases event.recv with
    | again =>
      simp only [after_nothing]
      exact .content here interim answers calls
    | failed =>
      simp only [after_nothing]
      exact gone
    | closed =>
      simp only [after_nothing]
      exact gone
    | outOfMemory =>
      simp only [after_nothing]
      exact gone
    | data chunk =>
      dsimp only
      by_cases received : bodyReceived (s.conn.receive chunk) = true
      · simp only [if_pos received, processHTTPPOST, postOutput]
        split
        · exact answer_stage _ _ interim answers calls (.inl received)
        · exact answer_stage _ none interim answers calls (.inl received)
      · simp only [if_neg received, after_nothing]
        exact .content here ⟨interim.once, interim.sent, interim.whole⟩ answers calls
  | closing here part interim answers bytes calls read =>
    unfold processUpnphttp processOutput
    simp only [here]
    exact close_stage part s.conn interim answers bytes calls read
  | refused here once bytes answers calls =>
    simp only [processUpnphttp, processOutput, here, after_nothing]
    exact .refused here once bytes answers calls
  | answered here part once sent answers bytes whole calls read =>
    simp only [processUpnphttp, processOutput, here, after_nothing]
    exact .answered here part once sent answers bytes whole calls read

theorem session_stage (env : HttpEnv) (socket : Int) (events : List Event) :
    Stage env (session env socket events) := by
  have start : Stage env (.opened socket) := by
    apply Stage.request <;> rfl
  unfold session
  induction events using List.reverseRecOn with
  | nil => exact start
  | append_singleton events event ih =>
    rw [List.foldl_append]
    exact step_stage event ih

end steps

/-- Two cut texts make up both texts exactly if neither of them is cut. -/
theorem append_eq_iff {part answer first second : List Char} (one : part <+: first)
    (two : answer <+: second) :
    part ++ answer = first ++ second ↔ part = first ∧ answer = second := by
  constructor
  · intro same
    have lengths := congrArg List.length same
    have shorter := one.length_le
    have rest := two.length_le
    simp only [List.length_append] at lengths
    exact ⟨one.eq_of_length (by omega), two.eq_of_length (by omega)⟩
  · rintro ⟨rfl, rfl⟩
    rfl

/-- Over every run of calls: there is at most one 100 Continue response, one answer and one
    action, and an answer only to a request that has been read. The client gets these texts in
    order, each cut at most at its end. When the connection is given up after an answer was
    built, the client has got every byte of them exactly if no send failed. -/
theorem responses_delivered (env : HttpEnv) (socket : Int) (events : List Event) :
    let s := session env socket events
    (s.continues.length ≤ 1 ∧ s.answers.length ≤ 1 ∧ s.calls.length ≤ s.answers.length) ∧
      (s.answers ≠ [] → RequestRead env s.conn) ∧
      (∃ interim answer, s.bytes = interim ++ answer ∧ interim <+: s.continues.flatten ∧
        answer <+: s.answers.flatten ∧
        (s.failed = false → answer ≠ [] → interim = s.continues.flatten)) ∧
      (s.conn.state = .toDelete → s.answers ≠ [] →
        (s.bytes = s.continues.flatten ++ s.answers.flatten ↔ s.failed = false)) := by
  intro s
  have stage : Stage env s := session_stage env socket events
  cases stage with
  | request here unread continues bytes good answers calls =>
    exact ⟨by simp [continues, answers, calls], by simp [answers],
      ⟨[], [], by simp [bytes]⟩, by simp [answers]⟩
  | continuing here continues bytes good answers calls =>
    refine ⟨by simp [continues, answers, calls], by simp [answers],
      ⟨s.bytes, [], by simp, ?_, by simp, by simp⟩, by simp [answers]⟩
    rw [continues, bytes, List.flatten_singleton]
    exact List.take_prefix _ _
  | content here interim answers calls =>
    exact ⟨⟨interim.once, by simp [answers], by simp [calls]⟩, by simp [answers],
      ⟨s.bytes, [], by simp, interim.sent, by simp, by simp⟩, by simp [answers]⟩
  | closing here part interim answers bytes calls read =>
    refine ⟨⟨interim.once, by simp [answers], by simpa [answers] using calls⟩, fun _ => read,
      ⟨part, _, bytes, interim.sent, ?_, fun good _ => interim.whole.mp good⟩, by simp [here]⟩
    rw [answers, List.flatten_singleton]
    exact List.take_prefix _ _
  | refused here once bytes answers calls =>
    exact ⟨⟨once, by simp [answers], by simp [calls]⟩, by simp [answers],
      ⟨s.bytes, [], by simp, bytes, by simp, by simp⟩, by simp [answers]⟩
  | answered here part once sent answers bytes whole calls read =>
    have cut : s.conn.resBuf.take s.conn.resSent <+: s.answers.flatten := by
      rw [answers, List.flatten_singleton]
      exact List.take_prefix _ _
    refine ⟨⟨once, by simp [answers], by simpa [answers] using calls⟩, fun _ => read,
      ⟨part, _, bytes, sent, cut, fun good _ => (whole.mp good).1⟩, fun _ _ => ?_⟩
    rw [bytes, append_eq_iff sent cut, whole, answers, List.flatten_singleton,
      List.take_eq_self_iff]

end HttpDelivery

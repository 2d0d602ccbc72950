import MiniUPnPd.HeaderBlock
import MiniUPnPd.UpnpHttpSpec

/-!
A request that arrives in several pieces. The headers are parsed once, when their end has
been received, with as much of the body behind them as came with it. What is executed does
not depend on that, unless the length of the body is read from the body.
-/
namespace HttpSplits
open CText UpnpHttp UpnpHttpSpec HeaderBlock

/-- The actions that a connection executes in a series of calls. -/
def executed (env : HttpEnv) : List Event → Connection → List SoapCall
  | [], _ => []
  | event :: events, c =>
      (processUpnphttp env event c).2.toList ++ executed env events (processUpnphttp env event c).1

/-- No 100 Continue response has to wait for the send buffer. -/
def Unblocked (env : HttpEnv) : List Event → Connection → Prop
  | [], c => c.state ≠ .sendingContinue
  | event :: events, c =>
      c.state ≠ .sendingContinue ∧ Unblocked env events (processUpnphttp env event c).1

def chunkOf (event : Event) : List Char :=
  match event.recv with
  | .data chunk => chunk
  | _ => []

/-- Every call of `recv` delivers some of the data, into a buffer of 2048 bytes. -/
def Delivers (event : Event) : Prop :=
  ∃ chunk, event.recv = .data chunk ∧ chunk ≠ [] ∧ chunk.length ≤ 2048

/-- A way to send a request on a new connection. -/
structure Split (env : HttpEnv) (s : Int) (request : List Char) (events : List Event) : Prop where
  delivers : ∀ event ∈ events, Delivers event
  whole : events.flatMap chunkOf = request
  unblocked : Unblocked env events (.opened s)

/-- While the end of the headers is missing. -/
def collected (s : Int) (b : List Char) : Connection := { Connection.opened s with reqBuf := b }

/-- The header block read, with `x` behind it. -/
def headersRead (s : Int) (pre x : List Char) : Connection :=
  readHeaders pre.length (collected s (pre ++ x))

def outcome (env : HttpEnv) (s : Int) (pre body x : List Char) : List SoapCall :=
  let c := headersRead s pre x
  if postAccepted env c ∧ 0 < c.headers.reqSoapActionOff ∧ c.headers.reqContentlen ≤ body.length then
    [executeSoapAction { c with reqBuf := pre ++ body }]
  else []

section runs
variable {env : HttpEnv} {event : Event} {events : List Event} {c : Connection} {s : Int}
  {b pre x body : List Char} {e : Nat}

/-- A connection that is closed, or only waits for its response to go out. -/
def Closing (c : Connection) : Prop := c.state = .toDelete ∨ c.state = .sendingAndClosing

theorem closing_step (closing : Closing c) :
    (processUpnphttp env event c).2 = none ∧ Closing (processUpnphttp env event c).1 := by
  unfold processUpnphttp
  rcases closing with gone | going
  · rw [gone]
    exact ⟨rfl, .inl gone⟩
  · rw [going]
    exact ⟨rfl, sendRespAndClose_state ..⟩

theorem closing_run (closing : Closing c) : executed env events c = [] := by
  induction events generalizing c with
  | nil => rfl
  | cons event events ih =>
    have step := @closing_step env event c closing
    rw [executed, step.1, ih step.2]
    rfl

theorem execute_append (block : InBlock pre c.headers) (off : c.reqContentoff = pre.length)
    (received : c.headers.reqContentlen ≤ x.length) (y : List Char) :
    executeSoapAction { c with reqBuf := pre ++ (x ++ y) } =
      executeSoapAction { c with reqBuf := pre ++ x } := by
  have inside := block.soapAction
  have action : slice (pre ++ x ++ y) c.headers.reqSoapActionOff c.headers.reqSoapActionLen.toNat =
      slice (pre ++ x) c.headers.reqSoapActionOff c.headers.reqSoapActionLen.toNat := by
    apply slice_append
    rw [List.length_append]
    omega
  have content : slice (pre ++ x ++ y) c.reqContentoff c.headers.reqContentlen =
      slice (pre ++ x) c.reqContentoff c.headers.reqContentlen := by
    apply slice_append
    rw [List.length_append]
    omega
  unfold executeSoapAction
  dsimp only
  rw [← List.append_assoc, action, content]

theorem processHTTPPOST_run (block : InBlock pre c.headers) (off : c.reqContentoff = pre.length)
    (buf : c.reqBuf = pre ++ x) (received : c.headers.reqContentlen ≤ x.length)
    (sends : List SendResult) (y : List Char) :
    (processHTTPPOST env sends c).2.toList ++
        executed env events (processHTTPPOST env sends c).1 =
      if 0 < c.headers.reqSoapActionOff then
        [executeSoapAction { c with reqBuf := pre ++ (x ++ y) }]
      else [] := by
  have complete : bodyReceived c = true := by
    unfold bodyReceived
    rw [buf, off, List.length_append]
    exact decide_eq_true (by omega)
  have after : Closing (processHTTPPOST env sends c).1 :=
    processHTTPPOST_received env sends complete
  rw [closing_run after, execute_append block off received, ← buf]
  unfold processHTTPPOST
  rw [if_pos complete]
  split
  · rfl
  · rfl

/-- While the body is incomplete, the data that arrives is only counted. -/
theorem content_run (delivers : ∀ event ∈ events, Delivers event)
    (waiting : c.state = .waitingForHttpContent) (block : InBlock pre c.headers)
    (off : c.reqContentoff = pre.length) (buf : c.reqBuf = pre ++ x)
    (incomplete : x.length < c.headers.reqContentlen) :
    executed env events c =
      if 0 < c.headers.reqSoapActionOff ∧
          c.headers.reqContentlen ≤ (x ++ events.flatMap chunkOf).length then
        [executeSoapAction { c with reqBuf := pre ++ (x ++ events.flatMap chunkOf) }]
      else [] := by
  induction events generalizing c x with
  | nil =>
    rw [if_neg]
    · rfl
    · rintro ⟨-, complete⟩
      simp only [List.flatMap_nil, List.append_nil] at complete
      omega
  | cons event events ih =>
    obtain ⟨chunk, recv, nonempty, short⟩ := delivers event List.mem_cons_self
    have others : ∀ event ∈ events, Delivers event :=
      fun event member => delivers event (List.mem_cons_of_mem _ member)
    have data : chunkOf event = chunk := by
      unfold chunkOf
      rw [recv]
    have longer : (c.receive chunk).reqBuf = pre ++ (x ++ chunk) := by
      unfold Connection.receive
      rw [buf, List.append_assoc]
    have received : bodyReceived (c.receive chunk) =
        decide (c.headers.reqContentlen ≤ (x ++ chunk).length) := by
      unfold bodyReceived
      rw [longer, List.length_append]
      unfold Connection.receive
      rw [off, Nat.add_sub_cancel_left]
    rw [List.flatMap_cons, data, ← List.append_assoc x]
    rw [executed]
    unfold processUpnphttp
    rw [waiting, recv]
    dsimp only
    rw [received]
    by_cases complete : c.headers.reqContentlen ≤ (x ++ chunk).length
    · have enough : c.headers.reqContentlen ≤ (x ++ chunk ++ events.flatMap chunkOf).length := by
        rw [List.length_append]
        omega
      rw [if_pos (decide_eq_true complete),
        @processHTTPPOST_run env events (c.receive chunk) pre _ block off longer complete event.sends
          (events.flatMap chunkOf)]
      simp only [enough, and_true]
      rfl
    · rw [if_neg (by simpa using complete)]
      exact @ih (c.receive chunk) (x ++ chunk) others waiting block off longer
        (Nat.not_le.mp complete)

/-- With some of the body missing the connection waits for it. -/
theorem processHTTPPOST_waits (sends : List SendResult) (incomplete : bodyReceived c = false)
    (unblocked : (processHTTPPOST env sends c).1.state ≠ .sendingContinue) :
    ∃ resBuf resSent, processHTTPPOST env sends c =
      ({ c with state := .waitingForHttpContent, resBuf := resBuf, resSent := resSent }, none) := by
  unfold processHTTPPOST at unblocked ⊢
  rw [if_neg (by simp [incomplete])] at unblocked ⊢
  split
  · rename_i flag
    obtain ⟨sent, after⟩ := sendResp_snd sends
      { c with resBuf := continueText c, resSent := 0, state := .sendingContinue }
    rw [if_pos flag] at unblocked
    dsimp only at unblocked after ⊢
    rw [after] at unblocked ⊢
    split
    · exact ⟨_, _, rfl⟩
    · rename_i unfinished
      rw [if_neg unfinished] at unblocked
      exact absurd rfl unblocked
  · exact ⟨_, _, rfl⟩

theorem unblocked_state (unblocked : Unblocked env events c) : c.state ≠ .sendingContinue := by
  cases events with
  | nil => exact unblocked
  | cons event events => exact unblocked.1

theorem headersRead_headers (s : Int) (block : Block pre) (x : List Char) :
    (headersRead s pre x).headers =
      if ReadsBody pre then
        { (headersRead s pre []).headers with reqContentlen := (atoi x).toNat }
      else (headersRead s pre []).headers := by
  have parsed := parseHttpHeaders_append block x .none
  unfold headersRead readHeaders collected
  dsimp only
  rw [List.append_nil]
  exact parsed

theorem headersRead_inBlock (s : Int) (block : Block pre) (x : List Char) :
    InBlock pre (headersRead s pre x).headers := by
  have first : InBlock pre (headersRead s pre []).headers := by
    unfold headersRead readHeaders collected
    dsimp only
    rw [List.append_nil]
    exact parsed_inBlock block
  rw [headersRead_headers s block x]
  split
  · exact ⟨first.host, first.soapAction⟩
  · exact first

/-- The call that receives the end of the headers, and all that follow it. -/
theorem header_run (delivers : ∀ event ∈ events, Delivers event) {chunk : List Char}
    (recv : event.recv = .data chunk) (text : b ++ chunk = pre ++ x)
    (found : findendheaders (pre ++ x) = some e) (size : pre.length = e + 4)
    (unblocked : Unblocked env (event :: events) (collected s b)) :
    executed env (event :: events) (collected s b) =
      outcome env s pre (x ++ events.flatMap chunkOf) x := by
  have step : processUpnphttp env event (collected s b) =
      if postAccepted env (headersRead s pre x) then
        processHTTPPOST env event.sends (headersRead s pre x)
      else (respondAndClose env event.sends (headersRead s pre x), none) := by
    have received : (collected s b).receive chunk = collected s (pre ++ x) := by
      rw [← text]
      rfl
    have state : (collected s b).state = .waitingForHttpRequest := rfl
    have buffer : (collected s (pre ++ x)).reqBuf = pre ++ x := rfl
    unfold processUpnphttp
    rw [state, recv]
    dsimp only
    rw [received, searchHeaders, buffer, found]
    dsimp only
    rw [processHttpQuery, ← size]
    rfl
  have block : Block pre := by
    have first := (findendheaders_some found).2
    rwa [← size, List.take_left] at first
  have inBlock := headersRead_inBlock s block x
  have next := unblocked_state unblocked.2
  unfold outcome
  dsimp only
  rw [executed]
  rw [step] at next ⊢
  by_cases accepted : postAccepted env (headersRead s pre x) = true
  · rw [if_pos accepted] at next ⊢
    simp only [accepted, true_and]
    by_cases complete : (headersRead s pre x).headers.reqContentlen ≤ x.length
    · have enough : (headersRead s pre x).headers.reqContentlen ≤
          (x ++ events.flatMap chunkOf).length := by
        rw [List.length_append]
        omega
      rw [@processHTTPPOST_run env events (headersRead s pre x) pre x inBlock rfl rfl complete
        event.sends (events.flatMap chunkOf)]
      simp only [enough, and_true]
    · have incomplete : bodyReceived (headersRead s pre x) = false := by
        unfold bodyReceived
        apply decide_eq_false
        have buffer : (headersRead s pre x).reqBuf.length - (headersRead s pre x).reqContentoff =
            x.length := by
          change (pre ++ x).length - pre.length = x.length
          rw [List.length_append, Nat.add_sub_cancel_left]
        rwa [buffer]
      obtain ⟨resBuf, resSent, waits⟩ := processHTTPPOST_waits event.sends incomplete next
      rw [waits]
      have rest := @content_run env events
        { headersRead s pre x with
          state := .waitingForHttpContent, resBuf := resBuf, resSent := resSent }
        pre x delivers rfl inBlock rfl rfl (Nat.not_le.mp complete)
      rw [rest]
      rfl
  · rw [if_neg accepted]
    have after : Closing (respondAndClose env event.sends (headersRead s pre x)) :=
      sendRespAndClose_state ..
    rw [closing_run after]
    simp [accepted]

/-- Without the end of the headers nothing happens but that the data is kept. -/
theorem search_step {chunk : List Char} (recv : event.recv = .data chunk)
    (missing : findendheaders (b ++ chunk) = none) :
    processUpnphttp env event (collected s b) = (collected s (b ++ chunk), none) := by
  have state : (collected s b).state = .waitingForHttpRequest := rfl
  have received : (collected s b).receive chunk = collected s (b ++ chunk) := rfl
  have buffer : (collected s (b ++ chunk)).reqBuf = b ++ chunk := rfl
  unfold processUpnphttp
  rw [state, recv]
  dsimp only
  rw [received, searchHeaders, buffer, missing]

/-- The block, the rest of the request, and what of it comes with the end of the block. -/
theorem request_run (delivers : ∀ event ∈ events, Delivers event)
    (unread : findendheaders b = none) (unblocked : Unblocked env events (collected s b)) :
    (findendheaders (b ++ events.flatMap chunkOf) = none → executed env events (collected s b) = []) ∧
      ∀ e, findendheaders (b ++ events.flatMap chunkOf) = some e →
        ∃ k ≤ 2047, executed env events (collected s b) =
          outcome env s ((b ++ events.flatMap chunkOf).take (e + 4))
            ((b ++ events.flatMap chunkOf).drop (e + 4))
            (((b ++ events.flatMap chunkOf).drop (e + 4)).take k) := by
  induction events generalizing b with
  | nil =>
    rw [List.flatMap_nil, List.append_nil]
    refine ⟨fun _ => rfl, ?_⟩
    intro e found
    rw [unread] at found
    exact absurd found (by simp)
  | cons event events ih =>
    obtain ⟨chunk, recv, nonempty, short⟩ := delivers event List.mem_cons_self
    have others : ∀ event ∈ events, Delivers event :=
      fun event member => delivers event (List.mem_cons_of_mem _ member)
    have data : chunkOf event = chunk := by
      unfold chunkOf
      rw [recv]
    rw [List.flatMap_cons, data, ← List.append_assoc]
    cases here : findendheaders (b ++ chunk) with
    | none =>
      have step := @search_step env event s b chunk recv here
      have next := unblocked.2
      rw [step] at next
      have rest := ih others here next
      rw [executed, step]
      exact rest
    | some e' =>
      have found := findendheaders_append here (events.flatMap chunkOf)
      obtain ⟨inside, -⟩ := findendheaders_some here
      refine ⟨fun none => absurd (none.symm.trans found) (by simp), ?_⟩
      intro e same
      obtain rfl := Option.some.inj (found.symm.trans same)
      -- the end of the block has come with this piece
      have late : b.length < e' + 4 := by
        by_contra early
        have before := findendheaders_prefix here (Nat.not_lt.mp early)
        rw [unread] at before
        exact absurd before (by simp)
      have size : ((b ++ chunk).take (e' + 4)).length = e' + 4 := by
        rw [List.length_take]
        omega
      have parts := List.take_append_drop (e' + 4) (b ++ chunk)
      have run := @header_run env event events s b ((b ++ chunk).take (e' + 4))
        ((b ++ chunk).drop (e' + 4)) e' others chunk recv parts.symm (parts.symm ▸ here) size unblocked
      rw [List.take_append_of_le_length inside, List.drop_append_of_le_length inside]
      refine ⟨((b ++ chunk).drop (e' + 4)).length, ?_, ?_⟩
      · rw [List.length_drop, List.length_append]
        omega
      · rw [List.take_left]
        exact run

end runs

section meaning
variable {env : HttpEnv} {s : Int} {pre body x : List Char}

/-- The block is that of a SOAP request that is not refused. -/
def SoapPost (env : HttpEnv) (s : Int) (pre : List Char) : Prop :=
  postAccepted env (headersRead s pre []) = true ∧
    0 < (headersRead s pre []).headers.reqSoapActionOff

instance : Decidable (SoapPost env s pre) := by
  unfold SoapPost
  infer_instance

/-- The content is read from the block, or from what follows it. -/
def contentlen (s : Int) (pre x : List Char) : Nat :=
  if ReadsBody pre then (atoi x).toNat else (headersRead s pre []).headers.reqContentlen

def soapCall (s : Int) (pre content : List Char) : SoapCall :=
  let h := (headersRead s pre []).headers
  let action := slice pre h.reqSoapActionOff h.reqSoapActionLen.toNat
  { method := soapMethod action, soapAction := action, content }

theorem headersRead_contentlen (block : Block pre) :
    (headersRead s pre x).headers.reqContentlen = contentlen s pre x := by
  rw [headersRead_headers s block, contentlen]
  split
  · rfl
  · rfl

theorem queryLine_append (block : Block pre) (x : List Char) :
    queryLine (pre ++ x) = queryLine pre := by
  have line : requestLine (pre ++ x) = requestLine pre := by
    obtain ⟨w, rfl⟩ := block
    have shape : ∀ y, w ++ "\r\n\r\n".toList ++ y = w ++ '\r' :: ('\n' :: '\r' :: '\n' :: y) := by
      intro y
      simp
    have plain := shape []
    rw [List.append_nil] at plain
    unfold requestLine
    rw [shape x, plain, takeWhile_append_stop (by decide), takeWhile_append_stop (by decide)]
  unfold queryLine
  rw [line]

theorem postAccepted_append (block : Block pre) (x : List Char) :
    postAccepted env (headersRead s pre x) = postAccepted env (headersRead s pre []) := by
  have inside := (headersRead_inBlock s block []).host
  have fields : (headersRead s pre x).headers.reqHostOff =
        (headersRead s pre []).headers.reqHostOff ∧
      (headersRead s pre x).headers.reqHostLen = (headersRead s pre []).headers.reqHostLen := by
    rw [headersRead_headers s block x]
    split
    · exact ⟨rfl, rfl⟩
    · exact ⟨rfl, rfl⟩
  have buffer : ∀ y, (headersRead s pre y).reqBuf = pre ++ y := fun y => rfl
  have host : hostRefused (pre ++ x) (headersRead s pre x).headers =
      hostRefused (pre ++ []) (headersRead s pre []).headers := by
    unfold hostRefused
    rw [fields.1, fields.2, slice_append inside, slice_append inside]
  unfold postAccepted
  rw [buffer, buffer, host, queryLine_append block, queryLine_append block]

theorem headersRead_soapAction (block : Block pre) (x : List Char) :
    (headersRead s pre x).headers.reqSoapActionOff =
        (headersRead s pre []).headers.reqSoapActionOff ∧
      (headersRead s pre x).headers.reqSoapActionLen =
        (headersRead s pre []).headers.reqSoapActionLen := by
  rw [headersRead_headers s block x]
  split
  · exact ⟨rfl, rfl⟩
  · exact ⟨rfl, rfl⟩

theorem execute_headersRead (block : Block pre) (x body : List Char) :
    executeSoapAction { headersRead s pre x with reqBuf := pre ++ body } =
      soapCall s pre (body.take (contentlen s pre x)) := by
  have fields := @headersRead_soapAction s pre block x
  have inside := (headersRead_inBlock s block []).soapAction
  have content : slice (pre ++ body) pre.length (contentlen s pre x) =
      body.take (contentlen s pre x) := by
    rw [slice, List.drop_left]
  have off : (headersRead s pre x).reqContentoff = pre.length := rfl
  unfold executeSoapAction soapCall
  dsimp only
  rw [fields.1, fields.2, headersRead_contentlen block, off, slice_append inside, content]

/-- What is executed depends on the split through the length of the content alone. -/
theorem outcome_eq (block : Block pre) (x : List Char) :
    outcome env s pre body x =
      if SoapPost env s pre ∧ contentlen s pre x ≤ body.length then
        [soapCall s pre (body.take (contentlen s pre x))]
      else [] := by
  unfold outcome SoapPost
  dsimp only
  rw [postAccepted_append block, (headersRead_soapAction block x).1, headersRead_contentlen block,
    execute_headersRead block]
  simp only [and_assoc]

end meaning

/-- A request that means the same however it is split: where the length of the body would be
    read from the body, no number is found there, in as much of it as can come with the end
    of the headers. -/
def Stable (env : HttpEnv) (s : Int) (request : List Char) : Prop :=
  ∀ e, findendheaders request = some e → SoapPost env s (request.take (e + 4)) →
    ReadsBody (request.take (e + 4)) → ∀ k ≤ 2047, atoi ((request.drop (e + 4)).take k) ≤ 0

section splits
variable {env : HttpEnv} {s : Int} {request : List Char} {events : List Event}

/-- Without a full send buffer no response has to wait. -/
theorem prompt_unblocked {c : Connection} (prompt : ∀ event ∈ events, event.sends = [])
    (unread : Unread c) (other : c.state ≠ .sendingContinue) : Unblocked env events c := by
  induction events generalizing c with
  | nil => exact other
  | cons event events ih =>
    refine ⟨other, ih ?_ (process_unread env event unread) ?_⟩
    · intro later member
      exact prompt later (List.mem_cons_of_mem _ member)
    · rw [ne_eq, process_continue_iff unread other]
      rintro ⟨-, chunk, -, -, full⟩
      rw [prompt event List.mem_cons_self] at full
      exact absurd full (by simp [waits])

def deliver (chunk : List Char) : Event := { recv := .data chunk, sends := [] }

/-- One character at a time. -/
def singles (text : List Char) : List Event := text.map fun c => deliver [c]

theorem singles_chunks (text : List Char) : (singles text).flatMap chunkOf = text := by
  induction text with
  | nil => rfl
  | cons c text ih =>
    have rest : singles (c :: text) = deliver [c] :: singles text := rfl
    rw [rest, List.flatMap_cons, ih]
    rfl

theorem singles_run (text : List Char) {b : List Char}
    (missing : findendheaders (b ++ text) = none) (more : List Event) :
    executed env (singles text ++ more) (collected s b) =
      executed env more (collected s (b ++ text)) := by
  induction text generalizing b with
  | nil => rw [List.append_nil]; rfl
  | cons c text ih =>
    have whole : b ++ c :: text = b ++ [c] ++ text := by simp
    have before : findendheaders (b ++ [c]) = none := by
      cases early : findendheaders (b ++ [c]) with
      | none => rfl
      | some e =>
        have later := findendheaders_append early text
        rw [← whole, missing] at later
        exact absurd later (by simp)
    have step := @search_step env (deliver [c]) s b [c] rfl before
    have first : singles (c :: text) ++ more = deliver [c] :: (singles text ++ more) := rfl
    rw [whole] at missing ⊢
    rw [first, executed, step]
    exact ih missing

/-- Any amount of the body can come with the end of the headers, up to the buffer of `recv`. -/
theorem split_exists {e : Nat} (found : findendheaders request = some e) {k : Nat}
    (fits : k ≤ 2047) :
    ∃ events, Split env s request events ∧
      executed env events (.opened s) =
        outcome env s (request.take (e + 4)) (request.drop (e + 4))
          ((request.drop (e + 4)).take k) := by
  obtain ⟨inside, block⟩ := findendheaders_some found
  have size : (request.take (e + 4)).length = e + 4 := by
    rw [List.length_take]
    omega
  have parts := List.take_append_drop (e + 4) request
  generalize request.take (e + 4) = pre at *
  generalize request.drop (e + 4) = body at *
  subst parts
  obtain ⟨init, last, rfl⟩ : ∃ init last, pre = init ++ [last] := by
    have nonempty : pre ≠ [] := by
      intro empty
      simp [empty] at size
    exact ⟨_, _, (List.dropLast_concat_getLast nonempty).symm⟩
  have missing : findendheaders init = none := by
    cases early : findendheaders init with
    | none => rfl
    | some e' =>
      have within := (findendheaders_some early).1
      have later := findendheaders_append early ([last] ++ body)
      rw [← List.append_assoc, found] at later
      have same := Option.some.inj later
      rw [List.length_append, List.length_singleton] at size
      omega
  have joined : init ++ last :: body.take k = (init ++ [last]) ++ body.take k := by simp
  have prompt : ∀ event ∈ singles init ++ deliver (last :: body.take k) :: singles (body.drop k),
      event.sends = [] := by
    intro event member
    simp only [singles, List.mem_append, List.mem_cons, List.mem_map] at member
    rcases member with ⟨c, -, rfl⟩ | rfl | ⟨c, -, rfl⟩
    · rfl
    · rfl
    · rfl
  have delivers : ∀ event ∈ singles init ++ deliver (last :: body.take k) :: singles (body.drop k),
      Delivers event := by
    intro event member
    simp only [singles, List.mem_append, List.mem_cons, List.mem_map] at member
    rcases member with ⟨c, -, rfl⟩ | rfl | ⟨c, -, rfl⟩
    · exact ⟨[c], rfl, by simp, by simp⟩
    · refine ⟨last :: body.take k, rfl, by simp, ?_⟩
      rw [List.length_cons, List.length_take]
      omega
    · exact ⟨[c], rfl, by simp, by simp⟩
  refine ⟨singles init ++ deliver (last :: body.take k) :: singles (body.drop k),
    ⟨delivers, ?_, ?_⟩, ?_⟩
  · rw [List.flatMap_append, List.flatMap_cons, singles_chunks, singles_chunks]
    have data : chunkOf (deliver (last :: body.take k)) = last :: body.take k := rfl
    rw [data, List.cons_append, List.take_append_drop, List.append_assoc, List.singleton_append]
  · exact prompt_unblocked prompt (fun _ => rfl) (by simp [Connection.opened])
  · have whole : findendheaders (init ++ [last] ++ body.take k) = some e := by
      apply findendheaders_prefix (y := body.drop k)
      · rw [List.append_assoc, List.take_append_drop]
        exact found
      · rw [List.length_append]
        omega
    have tail : Unblocked env (deliver (last :: body.take k) :: singles (body.drop k))
        (collected s init) := by
      apply prompt_unblocked
      · intro event member
        exact prompt event (List.mem_append_right _ member)
      · intro _
        exact missing
      · simp [collected, Connection.opened]
    have start : Connection.opened s = collected s [] := rfl
    rw [start, singles_run init (b := []) missing, List.nil_append]
    have run := @header_run env _ _ s init (init ++ [last]) (body.take k) e
      (fun event member => delivers event
        (List.mem_append_right _ (List.mem_cons_of_mem _ member)))
      (last :: body.take k) rfl joined whole size tail
    rw [run, singles_chunks, List.take_append_drop]

/-- Every two ways to send a request lead to the same action, exactly if it is stable. -/
theorem splits_agree_iff (env : HttpEnv) (s : Int) (request : List Char) :
    (∀ first second, Split env s request first → Split env s request second →
      executed env first (.opened s) = executed env second (.opened s)) ↔
      Stable env s request := by
  constructor
  · intro agree e found soap reads k fits
    have block := (findendheaders_some found).2
    obtain ⟨first, split, run⟩ := @split_exists env s request e found 0 (by omega)
    obtain ⟨second, split', run'⟩ := @split_exists env s request e found k fits
    have same := agree first second split split'
    have none : atoi [] = 0 := by decide
    rw [run, run', outcome_eq block, outcome_eq block] at same
    simp only [contentlen, if_pos reads, List.take_zero, none, Int.toNat_zero, Nat.zero_le,
      and_true, if_pos soap] at same
    by_contra positive
    split at same
    · rename_i enough
      have content := congrArg SoapCall.content (List.singleton_inj.mp same)
      have empty : List.length ((request.drop (e + 4)).take
          (atoi ((request.drop (e + 4)).take k)).toNat) = 0 :=
        (congrArg List.length content).symm
      rw [List.length_take] at empty
      omega
    · simp at same
  · intro stable first second split split'
    have run := @request_run env first s [] split.delivers rfl split.unblocked
    have run' := @request_run env second s [] split'.delivers rfl split'.unblocked
    rw [split.whole, List.nil_append] at run
    rw [split'.whole, List.nil_append] at run'
    change executed env first (collected s []) = executed env second (collected s [])
    cases found : findendheaders request with
    | none => rw [run.1 found, run'.1 found]
    | some e =>
      have block := (findendheaders_some found).2
      obtain ⟨k, fits, here⟩ := run.2 e found
      obtain ⟨k', fits', there⟩ := run'.2 e found
      rw [here, there, outcome_eq block, outcome_eq block]
      by_cases soap : SoapPost env s (request.take (e + 4))
      · have same : contentlen s (request.take (e + 4)) ((request.drop (e + 4)).take k) =
            contentlen s (request.take (e + 4)) ((request.drop (e + 4)).take k') := by
          unfold contentlen
          split
          · rename_i reads
            rw [Int.toNat_of_nonpos (stable e found soap reads k fits),
              Int.toNat_of_nonpos (stable e found soap reads k' fits')]
          · rfl
        rw [same]
      · rw [if_neg (fun both => soap both.1), if_neg (fun both => soap both.1)]

end splits

def plainHttp : HttpEnv := { randomUrl := none, response := fun _ => "HTTP/1.1 200 OK".toList }

/-- A Content-Length header without a number, before a body that starts with one. -/
def unnumbered : List Char :=
  "POST /ctl/IPConn HTTP/1.1\r\nSOAPAction: a#b\r\nContent-Length:\r\n\r\n".toList

theorem unnumbered_length_differs :
    Split plainHttp 5 (unnumbered ++ "5hello".toList) [deliver (unnumbered ++ "5hello".toList)] ∧
      Split plainHttp 5 (unnumbered ++ "5hello".toList)
        [deliver unnumbered, deliver "5hello".toList] ∧
      executed plainHttp [deliver (unnumbered ++ "5hello".toList)] (.opened 5) ≠
        executed plainHttp [deliver unnumbered, deliver "5hello".toList] (.opened 5) := by
  have opened : Unread (.opened 5) ∧ (Connection.opened 5).state ≠ .sendingContinue :=
    ⟨fun _ => rfl, by simp [Connection.opened]⟩
  refine ⟨⟨?_, by simp [chunkOf, deliver], ?_⟩, ⟨?_, by simp [chunkOf, deliver], ?_⟩, ?_⟩
  · simp only [List.mem_singleton, forall_eq]
    exact ⟨_, rfl, by decide, by decide⟩
  · exact prompt_unblocked (by simp [deliver]) opened.1 opened.2
  · simp only [List.mem_cons, List.not_mem_nil, or_false, forall_eq_or_imp, forall_eq]
    exact ⟨⟨_, rfl, by decide, by decide⟩, ⟨_, rfl, by decide, by decide⟩⟩
  · exact prompt_unblocked (by simp [deliver]) opened.1 opened.2
  · decide +kernel

end HttpSplits

import MiniUPnPd.UpnpHttp

/-!
What one call of `Process_upnphttp` can do to the state of a connection. A response that has
to wait for the send buffer is the one thing that leads into the state in which the rest of
a 100 Continue response is sent.
-/
namespace UpnpHttpSpec
open CText UpnpHttp

/-- The calls stop at a full buffer with this much left to send, or less. -/
def waits : List SendResult → (left : Nat) → Bool
  | [], _ => false
  | result :: sends, left =>
      if left = 0 then false
      else
        match result with
        | .interrupted => waits sends left
        | .again => true
        | .failed => false
        | .sent n => if n = 0 then false else waits sends (left - n)

/-- The headers are complete, but the body is not, and the client waits for a 100 Continue. -/
def asksForContinue (env : HttpEnv) (c : Connection) : Prop :=
  ∃ endheaders, findendheaders c.reqBuf = some endheaders ∧
    postAccepted env (readHeaders (endheaders + 4) c) = true ∧
    bodyReceived (readHeaders (endheaders + 4) c) = false ∧
    (readHeaders (endheaders + 4) c).headers.flagContinue = true

/-- The response to such a request meets a full send buffer. -/
def ContinueWaits (env : HttpEnv) (event : Event) (c : Connection) : Prop :=
  c.state = .waitingForHttpRequest ∧
    ∃ chunk, event.recv = .data chunk ∧ asksForContinue env (c.receive chunk) ∧
      waits event.sends
        ((queryLine (c.receive chunk).reqBuf).httpVer ++ " 100 Continue\r\n\r\n".toList).length =
        true

section connection
variable {env : HttpEnv} {event : Event} {c : Connection} {sends : List SendResult}

theorem sendResp_fst (sends : List SendResult) (c : Connection) :
    (sendResp sends c).1 = !waits sends (c.resBuf.length - c.resSent) := by
  induction sends generalizing c with
  | nil => rfl
  | cons result sends ih =>
    by_cases more : c.resSent < c.resBuf.length
    · have left : c.resBuf.length - c.resSent ≠ 0 := by omega
      unfold sendResp waits
      rw [if_pos more, if_neg left]
      cases result with
      | interrupted => exact ih c
      | again => rfl
      | failed => rfl
      | sent n =>
        dsimp only
        split
        · rfl
        · rw [ih, Nat.sub_add_eq]
    · have done : c.resBuf.length - c.resSent = 0 := by omega
      unfold sendResp waits
      rw [if_neg more, if_pos done]
      rfl

/-- Sending changes nothing but the count of what was sent. -/
theorem sendResp_snd (sends : List SendResult) (c : Connection) :
    ∃ sent, (sendResp sends c).2 = { c with resSent := sent } := by
  induction sends generalizing c with
  | nil => exact ⟨_, rfl⟩
  | cons result sends ih =>
    unfold sendResp
    split
    · cases result with
      | interrupted => exact ih c
      | again => exact ⟨_, rfl⟩
      | failed => exact ⟨_, rfl⟩
      | sent n =>
        dsimp only
        split
        · exact ⟨_, rfl⟩
        · obtain ⟨sent, same⟩ := ih { c with resSent := c.resSent + n }
          exact ⟨sent, same⟩
    · exact ⟨_, rfl⟩

theorem sendRespAndClose_state (sends : List SendResult) (c : Connection) :
    (sendRespAndClose sends c).state = .toDelete ∨
      (sendRespAndClose sends c).state = .sendingAndClosing := by
  unfold sendRespAndClose
  dsimp only
  split
  · exact .inl rfl
  · exact .inr rfl

/-- After the handler of a complete POST the connection is closed or about to be. -/
theorem processHTTPPOST_received (env : HttpEnv) (sends : List SendResult)
    (received : bodyReceived c = true) :
    (processHTTPPOST env sends c).1.state = .toDelete ∨
      (processHTTPPOST env sends c).1.state = .sendingAndClosing := by
  unfold processHTTPPOST
  rw [if_pos received]
  split
  · exact sendRespAndClose_state ..
  · exact sendRespAndClose_state ..

theorem processHTTPPOST_incomplete (env : HttpEnv) (sends : List SendResult)
    (incomplete : bodyReceived c = false) :
    (processHTTPPOST env sends c).1.socket = c.socket ∧
      ((processHTTPPOST env sends c).1.state = .waitingForHttpContent ∨
        (processHTTPPOST env sends c).1.state = .sendingContinue) ∧
      ((processHTTPPOST env sends c).1.state = .sendingContinue ↔
        c.headers.flagContinue = true ∧ waits sends (continueText c).length = true) := by
  unfold processHTTPPOST
  rw [if_neg (by simp [incomplete])]
  by_cases flag : c.headers.flagContinue = true
  · rw [if_pos flag]
    obtain ⟨sent, after⟩ := sendResp_snd sends
      { c with resBuf := continueText c, resSent := 0, state := .sendingContinue }
    have finished := sendResp_fst sends
      { c with resBuf := continueText c, resSent := 0, state := .sendingContinue }
    dsimp only at finished ⊢
    rw [finished, after, Nat.sub_zero]
    cases waits sends (continueText c).length <;> simp [flag]
  · rw [if_neg flag]
    simp [flag]

/-- A search that finds the end of the headers leads to one of these states. -/
theorem searchHeaders_state (env : HttpEnv) (sends : List SendResult) (c : Connection)
    {endheaders : Nat} (found : findendheaders c.reqBuf = some endheaders) :
    (searchHeaders env sends c).1.state ≠ .waitingForHttpRequest ∧
      ((searchHeaders env sends c).1.state = .sendingContinue ↔
        asksForContinue env c ∧
          waits sends ((queryLine c.reqBuf).httpVer ++ " 100 Continue\r\n\r\n".toList).length =
            true) ∧
      ((searchHeaders env sends c).1.state = .sendingContinue →
        (searchHeaders env sends c).1.socket = c.socket) := by
  have closing : ∀ c' : Connection, c'.state = .toDelete ∨ c'.state = .sendingAndClosing →
      c'.state ≠ .waitingForHttpRequest ∧ c'.state ≠ .sendingContinue := by
    rintro c' (gone | going)
    · simp [gone]
    · simp [going]
  simp only [searchHeaders, found, processHttpQuery]
  have asks : asksForContinue env c ↔
      postAccepted env (readHeaders (endheaders + 4) c) = true ∧
        bodyReceived (readHeaders (endheaders + 4) c) = false ∧
        (readHeaders (endheaders + 4) c).headers.flagContinue = true := by
    simp [asksForContinue, found]
  rw [asks]
  by_cases accepted : postAccepted env (readHeaders (endheaders + 4) c) = true
  · rw [if_pos accepted]
    by_cases received : bodyReceived (readHeaders (endheaders + 4) c) = true
    · obtain ⟨notFirst, notContinue⟩ := closing _ (processHTTPPOST_received env sends received)
      refine ⟨notFirst, ⟨fun there => absurd there notContinue, ?_⟩,
        fun there => absurd there notContinue⟩
      rintro ⟨⟨_, incomplete, _⟩, _⟩
      simp [received] at incomplete
    · have incomplete : bodyReceived (readHeaders (endheaders + 4) c) = false := by
        simpa using received
      obtain ⟨socket, next, exact'⟩ := processHTTPPOST_incomplete env sends incomplete
      refine ⟨?_, ?_, fun _ => socket⟩
      · rcases next with content | waiting
        · simp [content]
        · simp [waiting]
      · rw [exact']
        simp only [accepted, incomplete, true_and]
        rfl
  · rw [if_neg accepted]
    obtain ⟨notFirst, notContinue⟩ := closing _ (sendRespAndClose_state sends
      { readHeaders (endheaders + 4) c with
        resBuf := env.response (readHeaders (endheaders + 4) c), resSent := 0 })
    exact ⟨notFirst, ⟨fun there => absurd there notContinue, fun asks => absurd asks.1.1 accepted⟩,
      fun there => absurd there notContinue⟩

/-- While it waits for the request, a connection has not received the end of the headers. -/
def Unread (c : Connection) : Prop :=
  c.state = .waitingForHttpRequest → findendheaders c.reqBuf = none

theorem searchHeaders_unread (env : HttpEnv) (sends : List SendResult) (c : Connection) :
    Unread (searchHeaders env sends c).1 := by
  intro waiting
  cases found : findendheaders c.reqBuf with
  | none =>
    simp only [searchHeaders, found] at waiting ⊢
  | some endheaders =>
    exact absurd waiting (searchHeaders_state env sends c found).1

theorem process_unread (env : HttpEnv) (event : Event) (unread : Unread c) :
    Unread (processUpnphttp env event c).1 := by
  unfold processUpnphttp
  cases here : c.state with
  | waitingForHttpRequest =>
    cases event.recv with
    | again => exact unread
    | failed => simp [Unread]
    | closed => simp [Unread]
    | outOfMemory => exact searchHeaders_unread env event.sends _
    | data chunk => exact searchHeaders_unread env event.sends _
  | waitingForHttpContent =>
    cases event.recv with
    | again => simp [Unread, here]
    | failed => simp [Unread]
    | closed => simp [Unread]
    | outOfMemory => simp [Unread]
    | data chunk =>
      dsimp only
      split
      · rename_i received
        intro waiting
        rcases processHTTPPOST_received env event.sends received with gone | going
        · simp [gone] at waiting
        · simp [going] at waiting
      · simp [Unread, Connection.receive, here]
  | sendingContinue =>
    obtain ⟨sent, after⟩ := sendResp_snd event.sends c
    dsimp only
    rw [after]
    split <;> simp [Unread, here]
  | sendingAndClosing =>
    intro waiting
    rcases sendRespAndClose_state event.sends c with gone | going
    · simp [gone] at waiting
    · simp [going] at waiting
  | toDelete => simp [Unread, here]

/-- The only way into the state in which the rest of a 100 Continue response is sent. -/
theorem process_continue_iff (unread : Unread c) (other : c.state ≠ .sendingContinue) :
    (processUpnphttp env event c).1.state = .sendingContinue ↔ ContinueWaits env event c := by
  unfold processUpnphttp
  cases here : c.state with
  | waitingForHttpRequest =>
    have nothing := unread here
    cases received : event.recv with
    | again => simp [ContinueWaits, here, received]
    | failed => simp [ContinueWaits, received]
    | closed => simp [ContinueWaits, received]
    | outOfMemory => simp [ContinueWaits, received, searchHeaders, nothing]
    | data chunk =>
      cases found : findendheaders (c.receive chunk).reqBuf with
      | none =>
        have stays : (searchHeaders env event.sends (c.receive chunk)).1.state =
            .waitingForHttpRequest := by
          simp only [searchHeaders, found]
          exact here
        have asksNothing : ¬ asksForContinue env (c.receive chunk) := by
          simp [asksForContinue, found]
        simp [ContinueWaits, received, stays, asksNothing]
      | some endheaders =>
        dsimp only
        rw [(searchHeaders_state env event.sends _ found).2.1]
        simp [ContinueWaits, received, here]
  | waitingForHttpContent =>
    have notWaiting : ¬ ContinueWaits env event c := by simp [ContinueWaits, here]
    cases event.recv with
    | again => simp [here, notWaiting]
    | failed => simp [notWaiting]
    | closed => simp [notWaiting]
    | outOfMemory => simp [notWaiting]
    | data chunk =>
      dsimp only
      split
      · rename_i received
        rcases processHTTPPOST_received env event.sends received with gone | going
        · simp [gone, notWaiting]
        · simp [going, notWaiting]
      · simp [Connection.receive, here, notWaiting]
  | sendingContinue => exact absurd here other
  | sendingAndClosing =>
    have notWaiting : ¬ ContinueWaits env event c := by simp [ContinueWaits, here]
    rcases sendRespAndClose_state event.sends c with gone | going
    · simp [gone, notWaiting]
    · simp [going, notWaiting]
  | toDelete => simp [ContinueWaits, here]

/-- That way keeps the socket. -/
theorem process_socket (waiting : ContinueWaits env event c) :
    (processUpnphttp env event c).1.socket = c.socket := by
  obtain ⟨here, chunk, received, asks, full⟩ := waiting
  obtain ⟨endheaders, found, _⟩ := id asks
  have search := searchHeaders_state env event.sends (c.receive chunk) found
  simp only [processUpnphttp, here, received]
  exact search.2.2 (search.2.1.mpr ⟨asks, full⟩)

end connection

end UpnpHttpSpec

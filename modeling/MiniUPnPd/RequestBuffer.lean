import MiniUPnPd.HeaderBlock
import MiniUPnPd.UpnpHttpSpec

/-!
The memory block of the request buffer. It grows in two states of a connection, and only one
of them ends it with a NUL, on which the searches for the method of a SOAP action rely. A
character that is read outside the block has no value.
-/
namespace RequestBuffer
open CText UpnpHttp UpnpHttpSpec HeaderBlock

/-- What is new in a block that grows has any value. -/
def realloc (junk : Char) (block : List Char) (size : Nat) : List Char :=
  (block ++ List.replicate size junk).take size

def memcpy (block : List Char) (offset : Nat) (bytes : List Char) : List Char :=
  block.take offset ++ bytes ++ block.drop (offset + bytes.length)

/-- The pointer found, as what is left of the block from there on; nothing at all where the
    search leaves the block. -/
def strchr (ch : Char) : List Char → Option (Option (List Char))
  | [] => none
  | c :: s => if c = ch then some (some (c :: s)) else if c = '\x00' then some none else strchr ch s

/-- The method in `action`, a pointer into the block. -/
def soapMethodAt (action : List Char) (n : Int) : Option (Option CString) := do
  match ← strchr '#' action with
  | none => pure none
  | some p =>
    if (action.length - p.length : Int) < n then
      let p := p.tail
      let rest : Int := n - (action.length - p.length)
      let methodlen : Int ← match ← strchr '"' p with
        | some p2 =>
          pure <| if (action.length - p2.length : Int) ≤ n then (p.length - p2.length : Int)
            else rest
        | none => pure rest
      pure (some (p.take methodlen.toNat))
    else pure none

/-- The block at `req_buf` after a call of `Process_upnphttp`. -/
def reqBlock (junk : Char) (event : Event) (c : Connection) (block : List Char) : List Char :=
  match c.state, event.recv with
  | .waitingForHttpRequest, .data chunk =>
      (memcpy (realloc junk block (chunk.length + c.reqBuf.length + 1)) c.reqBuf.length chunk).set
        (c.reqBuf.length + chunk.length) '\x00'
  | .waitingForHttpContent, .data chunk =>
      memcpy (realloc junk block (chunk.length + c.reqBuf.length)) c.reqBuf.length chunk
  | _, _ => block

structure Buffered where
  connection : Connection
  block : List Char

def Buffered.opened (s : Int) : Buffered := { connection := .opened s, block := [] }

def Buffered.step (env : HttpEnv) (junk : Char) (event : Event) (b : Buffered) : Buffered :=
  { connection := (processUpnphttp env event b.connection).1
    block := reqBlock junk event b.connection b.block }

/-- The character at `req_buf[req_buflen]` exists and is NUL, and no search for the method
    leaves the block. -/
structure Inside (b : Buffered) : Prop where
  terminated : b.block[b.connection.reqBuf.length]? = some '\x00'
  searches : soapMethodAt (b.block.drop b.connection.headers.reqSoapActionOff)
    b.connection.headers.reqSoapActionLen ≠ none

/-- Every call that executes an action does it in a state that fulfils `holds`, which speaks of
    the state before the call and the one after it. -/
def Executions (env : HttpEnv) (junk : Char) (holds : Buffered → Buffered → Prop) :
    List Event → Buffered → Prop
  | [], _ => True
  | event :: events, b =>
      ((processUpnphttp env event b.connection).2.isSome → holds b (b.step env junk event)) ∧
        Executions env junk holds events (b.step env junk event)

section memory
variable {block text chunk rest : List Char} {junk : Char}

/-- The text so far stays, the chunk follows it, and `k` more characters are left. -/
theorem memcpy_realloc (text chunk rest : List Char) (junk : Char) (k : Nat) :
    ∃ more, memcpy (realloc junk (text ++ rest) (chunk.length + text.length + k)) text.length
        chunk = text ++ (chunk ++ more) ∧ more.length = k := by
  have front : (realloc junk (text ++ rest) (chunk.length + text.length + k)).take text.length =
      text := by
    rw [realloc, List.take_take, Nat.min_eq_left (by omega), List.append_assoc, List.take_left]
  have size : (realloc junk (text ++ rest) (chunk.length + text.length + k)).length =
      chunk.length + text.length + k := by
    rw [realloc, List.length_take, List.length_append, List.length_replicate]
    omega
  refine ⟨(realloc junk (text ++ rest) (chunk.length + text.length + k)).drop
    (text.length + chunk.length), ?_, ?_⟩
  · rw [memcpy, front, List.append_assoc]
  · rw [List.length_drop, size]
    omega

/-- While it waits for the request, the block ends with a NUL. -/
theorem reqBlock_request {event : Event} {c : Connection}
    (waiting : c.state = .waitingForHttpRequest)
    (recv : event.recv = .data chunk) :
    reqBlock junk event c (c.reqBuf ++ rest) = c.reqBuf ++ chunk ++ ['\x00'] := by
  obtain ⟨more, copied, one⟩ := memcpy_realloc c.reqBuf chunk rest junk 1
  obtain ⟨last, rfl⟩ := List.length_eq_one_iff.mp one
  simp only [reqBlock, waiting, recv, copied]
  rw [← List.append_assoc, ← List.length_append, List.set_append_right _ _ le_rfl, Nat.sub_self]
  rfl

/-- While it waits for the content, the block ends with the data. -/
theorem reqBlock_content {event : Event} {c : Connection}
    (waiting : c.state = .waitingForHttpContent)
    (recv : event.recv = .data chunk) :
    reqBlock junk event c (c.reqBuf ++ rest) = c.reqBuf ++ chunk := by
  obtain ⟨more, copied, none⟩ := memcpy_realloc c.reqBuf chunk rest junk 0
  obtain rfl := List.length_eq_zero_iff.mp none
  simp only [reqBlock, waiting, recv]
  rw [Nat.add_zero, List.append_nil] at copied
  exact copied

theorem strchr_found {ch : Char} {u : List Char} (r : List Char) (absent : ch ∉ u)
    (noNul : '\x00' ∉ u) : strchr ch (u ++ ch :: r) = some (some (ch :: r)) := by
  induction u with
  | nil => simp [strchr]
  | cons c u ih =>
    simp only [List.mem_cons, not_or] at absent noNul
    rw [List.cons_append, strchr, if_neg (Ne.symm absent.1), if_neg (Ne.symm noNul.1)]
    exact ih absent.2 noNul.2

theorem strchr_missing {ch : Char} {text : List Char} (r : List Char) (other : ch ≠ '\x00')
    (absent : ch ∉ untilNul text) : strchr ch (text ++ '\x00' :: r) = some none := by
  induction text with
  | nil => simp [strchr, Ne.symm other]
  | cons c text ih =>
    rw [List.cons_append, strchr]
    by_cases nul : c = '\x00'
    · subst nul
      rw [if_neg (Ne.symm other), if_pos rfl]
    · have parts : untilNul (c :: text) = c :: untilNul text := by simp [untilNul, nul]
      rw [parts, List.mem_cons, not_or] at absent
      rw [if_neg (Ne.symm absent.1), if_neg nul]
      exact ih absent.2

/-- The first of these characters in front of the first NUL. -/
theorem first_in_text {ch : Char} {text : List Char} (member : ch ∈ untilNul text) :
    ∃ u v, text = u ++ ch :: v ∧ ch ∉ u ∧ '\x00' ∉ u := by
  obtain ⟨u, w, parts, absent⟩ := List.eq_append_cons_of_mem member
  refine ⟨u, w ++ text.dropWhile (· ≠ '\x00'), ?_, absent, ?_⟩
  · rw [← List.cons_append, ← List.append_assoc, ← parts]
    exact List.takeWhile_append_dropWhile.symm
  · intro nul
    have inside : '\x00' ∈ untilNul text := by
      rw [parts]
      exact List.mem_append_left _ nul
    have passed := List.all_eq_true.mp List.all_takeWhile _ inside
    simp at passed

theorem untilNul_front {u : List Char} (noNul : '\x00' ∉ u) (v : List Char) :
    untilNul (u ++ v) = u ++ untilNul v := by
  rw [untilNul, List.takeWhile_append_of_pos]
  · rfl
  · intro c member
    have other : c ≠ '\x00' := by
      rintro rfl
      exact noNul member
    simpa using other

theorem in_text {ch : Char} {u : List Char} (v : List Char) (other : ch ≠ '\x00')
    (noNul : '\x00' ∉ u) : ch ∈ untilNul (u ++ ch :: v) := by
  rw [untilNul_front noNul]
  simp [untilNul, other]

theorem untilNul_take {ch : Char} {text : List Char} (k : Nat) (other : ch ≠ '\x00')
    (absent : ch ∉ untilNul text) : ch ∉ untilNul (text.take k) := by
  intro member
  obtain ⟨u, v, front, -, noNul⟩ := first_in_text member
  apply absent
  rw [← List.take_append_drop k text, front, List.append_assoc, List.cons_append]
  exact in_text _ other noNul

/-- The end of the method: the quote behind it, unless it lies behind the header too. -/
theorem method_end {v : List Char} {m : Nat} (inside : m ≤ v.length) {a : Nat} {n : Int}
    (rest : n - a = m) :
    ∃ found, strchr '"' (v ++ ['\x00']) = some found ∧
      (v ++ ['\x00']).take
          (match found with
            | some p2 =>
              if (a + (v ++ ['\x00']).length - p2.length : Int) ≤ n then
                ((v ++ ['\x00']).length - p2.length : Int)
              else n - a
            | none => n - a).toNat =
        (if '"' ∈ untilNul (v.take m) then (v.take m).takeWhile (· ≠ '"') else v.take m) := by
  have whole : (v ++ ['\x00']).take m = v.take m := List.take_append_of_le_length inside
  by_cases quote : '"' ∈ untilNul v
  · obtain ⟨x, y, rfl, noQuote, noNul⟩ := first_in_text quote
    refine ⟨some ('"' :: (y ++ ['\x00'])), ?_, ?_⟩
    · rw [List.append_assoc, List.cons_append]
      exact strchr_found _ noQuote noNul
    have length : ((x ++ '"' :: y ++ ['\x00']).length : Int) - ('"' :: (y ++ ['\x00'])).length =
        x.length := by
      simp only [List.length_append, List.length_cons]
      push_cast
      omega
    have position :
        (a + (x ++ '"' :: y ++ ['\x00']).length - ('"' :: (y ++ ['\x00'])).length : Int) =
          a + x.length := by omega
    dsimp only
    rw [position, length]
    have passes : ∀ c ∈ x, decide (c ≠ '"') = true := by
      intro c member
      have other : c ≠ '"' := by
        rintro rfl
        exact noQuote member
      simpa using other
    rcases Nat.lt_trichotomy x.length m with less | same | more
    · rw [if_pos (by omega), Int.toNat_natCast]
      obtain ⟨k, rfl⟩ := Nat.exists_eq_add_of_lt less
      have front : (x ++ '"' :: y).take (x.length + k + 1) = x ++ '"' :: y.take k := by
        rw [Nat.add_assoc, List.take_length_add_append, List.take_succ_cons]
      rw [front, if_pos (in_text _ (by decide) noNul), List.append_assoc, List.take_left,
        List.takeWhile_append_of_pos passes, List.takeWhile_cons_of_neg (by simp), List.append_nil]
    · subst same
      rw [if_pos (by omega), Int.toNat_natCast, List.append_assoc, List.take_left, List.take_left]
      have alone : '"' ∉ untilNul x := by
        intro member
        exact noQuote ((List.takeWhile_prefix _).subset member)
      rw [if_neg alone]
    · have alone : '"' ∉ untilNul ((x ++ '"' :: y).take m) := by
        intro member
        have inside := (List.takeWhile_prefix _).subset member
        rw [List.take_append_of_le_length (Nat.le_of_lt more)] at inside
        exact noQuote (List.mem_of_mem_take inside)
      rw [if_neg (by omega), rest, Int.toNat_natCast, whole, if_neg alone]
  · refine ⟨none, strchr_missing [] (by decide) quote, ?_⟩
    dsimp only
    rw [rest, Int.toNat_natCast, whole, if_neg (untilNul_take m (by decide) quote)]

/-- The searches stop at the characters that end the method in a copy of the header. -/
theorem soapMethodAt_terminated {text : List Char} {n : Int} (inside : n.toNat ≤ text.length) :
    soapMethodAt (text ++ ['\x00']) n = some (soapMethod (text.take n.toNat)) := by
  by_cases sign : '#' ∈ untilNul text
  · obtain ⟨u, v, rfl, noSign, noNul⟩ := first_in_text sign
    have whole : u ++ '#' :: v ++ ['\x00'] = u ++ '#' :: (v ++ ['\x00']) := by simp
    have before : ((u ++ '#' :: (v ++ ['\x00'])).length - ('#' :: (v ++ ['\x00'])).length : Int) =
        u.length := by
      rw [List.length_append]
      push_cast
      omega
    have length : ((u ++ '#' :: (v ++ ['\x00'])).length : Int) =
        (u.length + 1 : Nat) + (v ++ ['\x00']).length := by
      rw [List.length_append, List.length_cons]
      push_cast
      omega
    rw [soapMethodAt, whole, strchr_found _ noSign noNul]
    simp only [Option.bind_eq_bind, Option.bind_some, List.tail_cons]
    rw [before]
    by_cases header : (u.length : Int) < n
    · obtain ⟨m, rfl⟩ : ∃ m : Nat, n = (u.length + 1 : Nat) + m :=
        ⟨(n - (u.length + 1 : Nat)).toNat, by omega⟩
      have size : ((u.length + 1 : Nat) + (m : Int)).toNat = u.length + (m + 1) := by omega
      have short : m ≤ v.length := by
        rw [size] at inside
        simp only [List.length_append, List.length_cons] at inside
        omega
      have sum : ((u.length + 1 : Nat) + (m : Int)) - (u.length + 1 : Nat) = m := by omega
      obtain ⟨found, search, ends⟩ := method_end short sum
      have front : (u ++ '#' :: v).take (u.length + (m + 1)) = u ++ '#' :: v.take m := by
        rw [List.take_length_add_append, List.take_succ_cons]
      have passes : ∀ c ∈ u, decide (c ≠ '#') = true := by
        intro c member
        have other : c ≠ '#' := by
          rintro rfl
          exact noSign member
        simpa using other
      have name : ((u ++ '#' :: v.take m).dropWhile (· ≠ '#')).drop 1 = v.take m := by
        rw [List.dropWhile_append_of_pos passes, List.dropWhile_cons_of_neg (by simp)]
        rfl
      have shift :
          ((u.length + 1 : Nat) + ((v ++ ['\x00']).length : Int)) - (v ++ ['\x00']).length =
            (u.length + 1 : Nat) := by omega
      rw [if_pos header, search, size, front, soapMethod, if_pos (in_text _ (by decide) noNul),
        name]
      dsimp only
      rw [← ends, length, shift]
      cases found with
      | none => rfl
      | some p2 => rfl
    · have shorter : '#' ∉ untilNul ((u ++ '#' :: v).take n.toNat) := by
        intro member
        have inU := (List.takeWhile_prefix _).subset member
        rw [List.take_append_of_le_length (by omega)] at inU
        exact noSign (List.mem_of_mem_take inU)
      rw [if_neg header, soapMethod, if_neg shorter]
      rfl
  · rw [soapMethodAt, strchr_missing [] (by decide) sign, soapMethod,
      if_neg (untilNul_take n.toNat (by decide) sign)]
    rfl

end memory

section steps
variable {env : HttpEnv} {junk : Char} {event : Event} {events : List Event} {c : Connection}
  {b : Buffered}

theorem sendRespAndClose_request (sends : List SendResult) (c : Connection) :
    (sendRespAndClose sends c).reqBuf = c.reqBuf ∧
      (sendRespAndClose sends c).headers = c.headers := by
  obtain ⟨sent, after⟩ := sendResp_snd sends c
  unfold sendRespAndClose
  dsimp only
  rw [after]
  split
  · exact ⟨rfl, rfl⟩
  · exact ⟨rfl, rfl⟩

/-- The handler of a POST keeps the request. -/
theorem processHTTPPOST_request (sends : List SendResult) (c : Connection) :
    (processHTTPPOST env sends c).1.reqBuf = c.reqBuf ∧
      (processHTTPPOST env sends c).1.headers = c.headers := by
  obtain ⟨sent, after⟩ := sendResp_snd sends
    { c with resBuf := continueText c, resSent := 0, state := .sendingContinue }
  unfold processHTTPPOST
  split
  · split
    · exact sendRespAndClose_request sends _
    · exact sendRespAndClose_request sends _
  · split
    · dsimp only
      rw [after]
      split
      · exact ⟨rfl, rfl⟩
      · exact ⟨rfl, rfl⟩
    · exact ⟨rfl, rfl⟩

/-- The headers are parsed once, when their end is found. -/
theorem searchHeaders_request (env : HttpEnv) (sends : List SendResult) (c : Connection) :
    (searchHeaders env sends c).1.reqBuf = c.reqBuf ∧
      (searchHeaders env sends c).1.headers =
        match findendheaders c.reqBuf with
        | none => c.headers
        | some e => parseHttpHeaders c.reqBuf (e + 4) c.headers := by
  unfold searchHeaders
  cases found : findendheaders c.reqBuf with
  | none => exact ⟨rfl, rfl⟩
  | some e =>
    dsimp only
    unfold processHttpQuery
    dsimp only
    split
    · exact processHTTPPOST_request sends (readHeaders (e + 4) c)
    · exact sendRespAndClose_request sends _

/-- What a block and its connection keep between the calls. -/
structure Kept (b : Buffered) : Prop where
  text : ∃ rest, b.block = b.connection.reqBuf ++ rest
  unread : b.connection.state = .waitingForHttpRequest →
    findendheaders b.connection.reqBuf = none ∧ b.connection.headers = .none
  read : b.connection.state = .waitingForHttpContent ∨ b.connection.state = .sendingContinue →
    findendheaders b.connection.reqBuf ≠ none

theorem opened_kept (s : Int) : Kept (.opened s) where
  text := ⟨[], rfl⟩
  unread := fun _ => ⟨rfl, rfl⟩
  read := by simp [Buffered.opened, Connection.opened]

/-- A search in what has been received leaves the connection in one of these ways. -/
theorem searchHeaders_kept {sends : List SendResult} {block : List Char}
    (fresh : c.headers = .none)
    (waiting : c.state ≠ .waitingForHttpContent ∧ c.state ≠ .sendingContinue)
    (text : ∃ rest, block = c.reqBuf ++ rest) :
    Kept { connection := (searchHeaders env sends c).1, block } := by
  obtain ⟨reqBuf, headers⟩ := searchHeaders_request env sends c
  refine ⟨?_, ?_, ?_⟩
  · rw [reqBuf]
    exact text
  · intro again
    have missing := searchHeaders_unread env sends c again
    rw [reqBuf] at missing
    rw [missing] at headers
    dsimp only at headers ⊢
    rw [reqBuf, headers]
    exact ⟨missing, fresh⟩
  · intro later
    dsimp only at later ⊢
    rw [reqBuf]
    intro missing
    have same : (searchHeaders env sends c).1 = c := by
      unfold searchHeaders
      rw [missing]
    rw [same] at later
    rcases later with content | waits
    · exact waiting.1 content
    · exact waiting.2 waits

/-- A connection that reads no more keeps what it has. -/
theorem closing_kept {block : List Char}
    (closing : c.state = .toDelete ∨ c.state = .sendingAndClosing)
    (text : ∃ rest, block = c.reqBuf ++ rest) : Kept { connection := c, block } where
  text := text
  unread := by
    intro waiting
    rcases closing with gone | going
    · simp [gone] at waiting
    · simp [going] at waiting
  read := by
    intro waiting
    rcases closing with gone | going
    · simp [gone] at waiting
    · simp [going] at waiting

theorem step_kept (env : HttpEnv) (junk : Char) (event : Event) (kept : Kept b) :
    Kept (b.step env junk event) := by
  obtain ⟨c, block⟩ := b
  obtain ⟨⟨rest, text⟩, unread, read⟩ := kept
  dsimp only at text unread read
  subst text
  unfold Buffered.step processUpnphttp
  dsimp only
  cases here : c.state with
  | waitingForHttpRequest =>
    obtain ⟨missing, fresh⟩ := unread here
    cases recv : event.recv with
    | again =>
      refine ⟨⟨rest, by simp [reqBlock, here, recv]⟩, fun _ => unread here, ?_⟩
      simp [here]
    | failed => exact closing_kept (.inl rfl) ⟨rest, by simp [reqBlock, here, recv]⟩
    | closed => exact closing_kept (.inl rfl) ⟨rest, by simp [reqBlock, here, recv]⟩
    | outOfMemory =>
      exact searchHeaders_kept fresh (by simp) ⟨rest, by simp [reqBlock, here, recv]⟩
    | data chunk =>
      refine searchHeaders_kept fresh (by simp [Connection.receive, here]) ⟨['\x00'], ?_⟩
      exact reqBlock_request here recv
  | waitingForHttpContent =>
    have found := read (.inl here)
    cases recv : event.recv with
    | again =>
      refine ⟨⟨rest, by simp [reqBlock, here, recv]⟩, ?_, fun _ => found⟩
      simp [here]
    | failed => exact closing_kept (.inl rfl) ⟨rest, by simp [reqBlock, here, recv]⟩
    | closed => exact closing_kept (.inl rfl) ⟨rest, by simp [reqBlock, here, recv]⟩
    | outOfMemory => exact closing_kept (.inl rfl) ⟨rest, by simp [reqBlock, here, recv]⟩
    | data chunk =>
      have grown : reqBlock junk event c (c.reqBuf ++ rest) = (c.receive chunk).reqBuf :=
        reqBlock_content here recv
      rw [grown]
      dsimp only
      split
      · rename_i received
        refine closing_kept (processHTTPPOST_received env event.sends received) ⟨[], ?_⟩
        rw [(processHTTPPOST_request event.sends _).1, List.append_nil]
      · refine ⟨⟨[], (List.append_nil _).symm⟩, ?_, ?_⟩
        · simp [Connection.receive, here]
        · intro _
          obtain ⟨e, some⟩ := Option.ne_none_iff_exists'.mp found
          have still := findendheaders_append some chunk
          dsimp only [Connection.receive]
          simp [still]
  | sendingContinue =>
    have found := read (.inr here)
    obtain ⟨sent, after⟩ := sendResp_snd event.sends c
    have same : reqBlock junk event c (c.reqBuf ++ rest) = c.reqBuf ++ rest := by
      simp [reqBlock, here]
    rw [same]
    dsimp only
    rw [after]
    split
    · exact ⟨⟨rest, rfl⟩, by simp, fun _ => found⟩
    · exact ⟨⟨rest, rfl⟩, by simp [here], fun _ => found⟩
  | sendingAndClosing =>
    refine closing_kept (sendRespAndClose_state event.sends c) ⟨rest, ?_⟩
    rw [(sendRespAndClose_request event.sends c).1]
    simp [reqBlock, here]
  | toDelete => exact closing_kept (.inl here) ⟨rest, by simp [reqBlock, here]⟩

/-- An action is executed by the call that receives the end of the headers, or by a later one
    that receives the end of the content. -/
theorem executes_cases (kept : Kept b)
    (executes : (processUpnphttp env event b.connection).2.isSome) :
    (∃ chunk e, b.connection.state = .waitingForHttpRequest ∧ event.recv = .data chunk ∧
        findendheaders (b.connection.reqBuf ++ chunk) = some e) ∨
      ∃ chunk, b.connection.state = .waitingForHttpContent ∧ event.recv = .data chunk := by
  unfold processUpnphttp at executes
  cases here : b.connection.state with
  | waitingForHttpRequest =>
    rw [here] at executes
    cases recv : event.recv with
    | data chunk =>
      rw [recv] at executes
      cases found : findendheaders (b.connection.reqBuf ++ chunk) with
      | some e => exact .inl ⟨chunk, e, rfl, rfl, found⟩
      | none =>
        have buffer : (b.connection.receive chunk).reqBuf = b.connection.reqBuf ++ chunk := rfl
        simp [searchHeaders, buffer, found] at executes
    | outOfMemory =>
      have missing := (kept.unread here).1
      simp [recv, searchHeaders, missing] at executes
    | again => simp [recv] at executes
    | failed => simp [recv] at executes
    | closed => simp [recv] at executes
  | waitingForHttpContent =>
    rw [here] at executes
    cases recv : event.recv with
    | data chunk => exact .inr ⟨chunk, rfl, rfl⟩
    | outOfMemory => simp [recv] at executes
    | again => simp [recv] at executes
    | failed => simp [recv] at executes
    | closed => simp [recv] at executes
  | sendingContinue => simp [here] at executes
  | sendingAndClosing => simp [here] at executes
  | toDelete => simp [here] at executes

theorem parsed_within {buf : List Char} {e : Nat} (found : findendheaders buf = some e) :
    (parseHttpHeaders buf (e + 4) .none).reqSoapActionOff +
      (parseHttpHeaders buf (e + 4) .none).reqSoapActionLen.toNat ≤ buf.length := by
  obtain ⟨inside, block⟩ := findendheaders_some found
  have size : (buf.take (e + 4)).length = e + 4 := List.length_take_of_le inside
  have parsed := parseHttpHeaders_append block (buf.drop (e + 4)) .none
  have within := (parsed_inBlock block).soapAction
  rw [List.take_append_drop] at parsed
  rw [size] at parsed within
  rw [parsed]
  split
  · exact Nat.le_trans within inside
  · exact Nat.le_trans within inside

/-- With the end of the headers comes the NUL. -/
theorem request_inside (kept : Kept b) {chunk : List Char} {e : Nat}
    (waiting : b.connection.state = .waitingForHttpRequest) (recv : event.recv = .data chunk)
    (found : findendheaders (b.connection.reqBuf ++ chunk) = some e) :
    Inside (b.step env junk event) := by
  obtain ⟨rest, text⟩ := kept.text
  obtain ⟨-, fresh⟩ := kept.unread waiting
  have block : (b.step env junk event).block = b.connection.reqBuf ++ chunk ++ ['\x00'] := by
    unfold Buffered.step
    dsimp only
    rw [text]
    exact reqBlock_request waiting recv
  have connection : (b.step env junk event).connection =
      (searchHeaders env event.sends (b.connection.receive chunk)).1 := by
    unfold Buffered.step processUpnphttp
    dsimp only
    rw [waiting, recv]
  obtain ⟨reqBuf, headers⟩ := searchHeaders_request env event.sends
    (b.connection.receive chunk)
  rw [← connection] at reqBuf headers
  have buffer : (b.connection.receive chunk).reqBuf = b.connection.reqBuf ++ chunk := rfl
  have parsed : (b.step env junk event).connection.headers =
      parseHttpHeaders (b.connection.reqBuf ++ chunk) (e + 4) .none := by
    rw [headers, buffer, found]
    dsimp only [Connection.receive]
    rw [fresh]
  have within : (b.step env junk event).connection.headers.reqSoapActionOff +
      (b.step env junk event).connection.headers.reqSoapActionLen.toNat ≤
        (b.connection.reqBuf ++ chunk).length := by
    rw [parsed]
    exact parsed_within found
  refine ⟨?_, ?_⟩
  · rw [block, reqBuf, buffer, List.getElem?_append_right le_rfl, Nat.sub_self]
    rfl
  · rw [block, List.drop_append_of_le_length (by omega), soapMethodAt_terminated]
    · simp
    · rw [List.length_drop]
      omega

/-- The block that has grown by the content alone has no character behind it. -/
theorem content_outside (kept : Kept b) {chunk : List Char}
    (waiting : b.connection.state = .waitingForHttpContent) (recv : event.recv = .data chunk) :
    ¬ Inside (b.step env junk event) := by
  obtain ⟨rest, text⟩ := kept.text
  have block : (b.step env junk event).block = b.connection.reqBuf ++ chunk := by
    unfold Buffered.step
    dsimp only
    rw [text]
    exact reqBlock_content waiting recv
  have reqBuf : (b.step env junk event).connection.reqBuf = b.connection.reqBuf ++ chunk := by
    unfold Buffered.step processUpnphttp
    dsimp only
    rw [waiting, recv]
    dsimp only
    split
    · exact (processHTTPPOST_request event.sends _).1
    · rfl
  intro inside
  have last := inside.terminated
  rw [block, reqBuf, List.getElem?_eq_none le_rfl] at last
  simp at last

/-- The end of the headers had not been received before. -/
def HeadersEnd (before _after : Buffered) : Prop :=
  findendheaders before.connection.reqBuf = none

theorem executions_iff (kept : Kept b) :
    Executions env junk (fun _ after => Inside after) events b ↔
      Executions env junk HeadersEnd events b := by
  induction events generalizing b with
  | nil => exact Iff.rfl
  | cons event events ih =>
    have rest := ih (step_kept env junk event kept)
    unfold Executions
    rw [rest]
    apply and_congr_left'
    apply forall_congr'
    intro executes
    rcases executes_cases kept executes with
      ⟨chunk, e, waiting, recv, found⟩ | ⟨chunk, waiting, recv⟩
    · constructor
      · intro _
        exact (kept.unread waiting).1
      · intro _
        exact request_inside kept waiting recv found
    · constructor
      · intro inside
        exact absurd inside (content_outside kept waiting recv)
      · intro unread
        exact absurd unread (kept.read (.inl waiting))

/-- For every series of calls on a new connection. -/
theorem inside_iff (env : HttpEnv) (junk : Char) (s : Int) (events : List Event) :
    Executions env junk (fun _ after => Inside after) events (.opened s) ↔
      Executions env junk HeadersEnd events (.opened s) :=
  executions_iff (opened_kept s)

/-- The content of one character arrives alone. -/
theorem content_alone_outside :
    ¬ ∀ (env : HttpEnv) (junk : Char) (s : Int) (events : List Event),
      Executions env junk (fun _ after => Inside after) events (.opened s) := by
  intro always
  have each := always { randomUrl := none, response := fun _ => [] } ' ' 5
    [{ recv := .data "POST / HTTP/1.1\r\nSOAPAction: a#b\r\nContent-Length: 1\r\n\r\n".toList
       sends := [] },
      { recv := .data ['x'], sends := [] }]
  rw [executions_iff (opened_kept 5)] at each
  obtain ⟨-, executed, -⟩ := each
  have unread := executed (by decide)
  revert unread
  unfold HeadersEnd
  decide

end steps

end RequestBuffer

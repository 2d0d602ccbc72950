import MiniUPnPd.UpnpStun

/-!
The answer to a request is held in one buffer, into which every datagram on the socket is
received. What is held at the end is the last one if it is valid, so that a valid answer is lost
exactly if something else comes after the last valid one.
-/
namespace StunResponses
open UpnpStun

/-- A Binding response, also an error response, with the identifier of the request. -/
structure ValidResponse (transactionId msg : List UInt8) : Prop where
  whole : 20 ≤ msg.length
  type : msg.take 2 = [0x01, 0x01] ∨ msg.take 2 = [0x01, 0x11]
  id : (msg.drop 8).take 12 = transactionId

def Valid (transactionId : List UInt8) : Recvfrom → Prop
  | .failed => False
  | .datagram data _ peerAddrLen =>
      peerAddrLen = sizeofSockaddrIn ∧ ValidResponse transactionId data

section receive
variable {transactionId data buffer : List UInt8}

theorem validResponse_congr {msg other : List UInt8} (long : 20 ≤ msg.length)
    (same : other.take 20 = msg.take 20) (valid : ValidResponse transactionId msg) :
    ValidResponse transactionId other := by
  have whole : 20 ≤ other.length := by
    have lengths := congrArg List.length same
    simp only [List.length_take] at lengths
    omega
  have front : other.take 2 = msg.take 2 := by
    have both := congrArg (List.take 2) same
    simpa [List.take_take] using both
  have middle : (other.drop 8).take 12 = (msg.drop 8).take 12 := by
    have both := congrArg (List.drop 8) same
    simpa [List.drop_take] using both
  exact ⟨whole, front ▸ valid.type, middle.trans valid.id⟩

theorem responseType_iff (b : UInt8) : b &&& 0xEF = 0x01 ↔ b = 0x01 ∨ b = 0x11 := by
  have bits : ∀ x : BitVec 8, x &&& 0xEF = 0x01 ↔ x = 0x01 ∨ x = 0x11 := by decide
  simp only [← UInt8.toBitVec_inj]
  exact bits b.toBitVec

/-- The checks of the source on the first bytes. -/
theorem validResponse_iff (msg : List UInt8) :
    ValidResponse transactionId msg ↔
      20 ≤ msg.length ∧
        ¬ (msg.getD 0 0 &&& 0xFF ≠ 0x01 ∨ msg.getD 1 0 &&& 0xEF ≠ 0x01) ∧
        (msg.drop 8).take 12 = transactionId := by
  match msg with
  | [] | [_] =>
    constructor
    · intro valid
      have whole := valid.whole
      simp at whole
    · intro checked
      have whole := checked.1
      simp at whole
  | first :: second :: rest =>
    have all : first &&& 0xFF = first := UInt8.and_neg_one
    constructor
    · intro valid
      refine ⟨valid.whole, ?_, valid.id⟩
      have types := valid.type
      simp only [List.take_succ_cons, List.take_zero, List.cons.injEq, and_true] at types
      simp only [List.getD_cons_zero, List.getD_cons_succ, all, ne_eq, not_or, not_not,
        responseType_iff]
      grind
    · intro checked
      have types := checked.2.1
      simp only [List.getD_cons_zero, List.getD_cons_succ, all, ne_eq, not_or, not_not,
        responseType_iff] at types
      refine ⟨checked.1, ?_, checked.2.2⟩
      simp only [List.take_succ_cons, List.take_zero, List.cons.injEq, and_true]
      grind

/-- Only the first bytes are looked at, which are those of the datagram. -/
theorem receiveStunResponse_iff {peer : SockaddrIn} {peerAddrLen : Nat}
    (front : 20 ≤ data.length → buffer.take 20 = data.take 20) :
    let len := receiveStunResponse (.datagram data peer peerAddrLen) buffer transactionId
    (len ≠ 0 ↔ Valid transactionId (.datagram data peer peerAddrLen)) ∧
      (len ≠ 0 → len = min data.length responseSize) := by
  have size : responseSize = 1024 := rfl
  by_cases mismatch : peerAddrLen ≠ sizeofSockaddrIn
  · simp [receiveStunResponse, Valid, mismatch]
  · by_cases short : min data.length responseSize < 20
    · have cut : ¬ 20 ≤ data.length := by omega
      have invalid : ¬ ValidResponse transactionId data := fun valid => cut valid.whole
      simp [receiveStunResponse, Valid, mismatch, invalid, short]
    · have whole : 20 ≤ data.length := by omega
      have same := front whole
      have long : 20 ≤ buffer.length := by
        have lengths := congrArg List.length same
        simp only [List.length_take] at lengths
        omega
      have moved : ValidResponse transactionId data ↔ ValidResponse transactionId buffer :=
        ⟨validResponse_congr whole same, validResponse_congr long same.symm⟩
      have some : min data.length responseSize ≠ 0 := by omega
      simp only [Valid, moved, validResponse_iff buffer, long, true_and, receiveStunResponse,
        if_neg mismatch, if_neg short]
      split
      · simp_all
      · split
        · simp_all
        · simp_all

/-- The response that a slot holds. -/
def Holds (transactionId : List UInt8) (r : Response) : Prop :=
  r.len ≠ 0 ∧ ValidResponse transactionId (r.buffer.take r.len)

/-- Whatever was held before. -/
theorem holds_receive (arrival : Recvfrom) (r : Response) :
    Holds transactionId (r.receive transactionId arrival) ↔ Valid transactionId arrival := by
  cases arrival with
  | failed => simp [Holds, Response.receive, receiveStunResponse, recvfrom, Valid]
  | datagram data peer peerAddrLen =>
    have size : responseSize = 1024 := rfl
    let buffer := data.take responseSize ++ r.buffer.drop (min data.length responseSize)
    have front : 20 ≤ data.length → buffer.take 20 = data.take 20 := by
      intro whole
      rw [List.take_append_of_le_length (by simp only [List.length_take]; omega), List.take_take]
      rfl
    obtain ⟨accepted, len⟩ :=
      @receiveStunResponse_iff transactionId data buffer peer peerAddrLen front
    constructor
    · intro held
      exact accepted.mp held.1
    · intro valid
      have some := accepted.mpr valid
      have held : buffer.take (min data.length responseSize) = data.take responseSize := by
        rw [List.take_append_of_le_length (by simp only [List.length_take]; omega), List.take_take,
          List.take_eq_take_iff]
        omega
      refine ⟨some, ?_⟩
      have kept : (Response.receive transactionId (.datagram data peer peerAddrLen) r).buffer.take
          (Response.receive transactionId (.datagram data peer peerAddrLen) r).len =
            data.take responseSize := (congrArg (buffer.take ·) (len some)).trans held
      rw [kept]
      apply validResponse_congr valid.2.whole _ valid.2
      rw [List.take_take]
      rfl

end receive

section runs
variable {transactionIds : Fin 4 → List UInt8} {responses after : Fin 4 → Response}

/-- A slot holds a response exactly if the last thing that came on its socket is one. -/
def Tracks (transactionId : List UInt8) (r : Response) : Prop :=
  Holds transactionId r ↔ ∃ arrival ∈ r.heard.getLast?, Valid transactionId arrival

theorem tracks_receive (transactionId : List UInt8) (arrival : Recvfrom) (r : Response) :
    Tracks transactionId (r.receive transactionId arrival) := by
  have last : (r.receive transactionId arrival).heard.getLast? = some arrival := by
    simp [Response.receive]
  simp [Tracks, last, holds_receive]

theorem tracks_receiveReady (arrived : Fin 4 → Option Recvfrom)
    (track : ∀ i, Tracks (transactionIds i) (responses i)) (i : Fin 4) :
    Tracks (transactionIds i) (receiveReady transactionIds arrived responses i) := by
  cases ready : arrived i with
  | none => simpa [receiveReady, ready] using track i
  | some arrival => simpa [receiveReady, ready] using tracks_receive _ arrival (responses i)

theorem tracks_wait {selects : List Select} {timeout : Timeval} {ret : Int}
    (track : ∀ i, Tracks (transactionIds i) (responses i))
    (returned : waitForStunResponses transactionIds selects timeout responses = some (ret, after)) :
    ∀ i, Tracks (transactionIds i) (after i) := by
  induction selects generalizing timeout responses with
  | nil =>
    unfold waitForStunResponses at returned
    split at returned
    · cases returned
    · cases returned
      exact track
  | cons select selects ih =>
    unfold waitForStunResponses at returned
    split at returned
    · cases select with
      | interrupted timeout => exact ih track returned
      | failed =>
        cases returned
        exact track
      | noMore =>
        cases returned
        exact track
      | ready arrived timeout =>
        have received := tracks_receiveReady arrived track
        simp only at returned
        split at returned
        · cases returned
          exact received
        · exact ih received returned
    · cases returned
      exact track

theorem tracks_rounds {rounds : List (List Select)}
    (track : ∀ i, Tracks (transactionIds i) (responses i))
    (returned : stunRounds transactionIds rounds responses = some after) :
    ∀ i, Tracks (transactionIds i) (after i) := by
  induction rounds generalizing responses with
  | nil =>
    cases returned
    exact track
  | cons selects rounds ih =>
    unfold stunRounds at returned
    split at returned
    · cases returned
    · rename_i ret waited wait
      have tracked := tracks_wait track wait
      split at returned
      · cases returned
        exact tracked
      · exact ih tracked returned

/-- The buffers are not initialised. -/
def start (buffers : Fin 4 → List UInt8) (i : Fin 4) : Response :=
  { buffer := buffers i, peerAddr := none, len := 0, heard := [] }

/-- A response is there for the requests that got one. -/
def ResponsesKept (transactionIds : Fin 4 → List UInt8) (responses : Fin 4 → Response) : Prop :=
  ∀ i, Holds (transactionIds i) (responses i) ↔
    ∃ arrival ∈ (responses i).heard, Valid (transactionIds i) arrival

/-- What comes last on a socket that got a valid response is valid. -/
def ValidLast (transactionId : List UInt8) (heard : List Recvfrom) : Prop :=
  (∃ arrival ∈ heard, Valid transactionId arrival) →
    ∃ arrival ∈ heard.getLast?, Valid transactionId arrival

theorem responses_kept_iff (transactionIds : Fin 4 → List UInt8) (buffers : Fin 4 → List UInt8)
    (rounds : List (List Select)) (responses : Fin 4 → Response)
    (returned : stunRounds transactionIds rounds (start buffers) = some responses) :
    ResponsesKept transactionIds responses ↔
      ∀ i, ValidLast (transactionIds i) (responses i).heard := by
  have started : ∀ i, Tracks (transactionIds i) (start buffers i) := by
    intro i
    simp [Tracks, start, Holds]
  have track := tracks_rounds started returned
  constructor
  · intro kept i some
    exact (track i).mp ((kept i).mpr some)
  · intro last i
    constructor
    · intro held
      obtain ⟨arrival, final, valid⟩ := (track i).mp held
      exact ⟨arrival, List.mem_of_getLast? final, valid⟩
    · intro some
      exact (track i).mpr (last i some)

/-- A response to the first request, and then another datagram on its socket. -/
def answer : List UInt8 :=
  [0x01, 0x01, 0x00, 0x00, 0x21, 0x12, 0xA4, 0x42] ++ List.replicate 12 0x07

def onFirst (data : List UInt8) : Recvfrom :=
  .datagram data { sinPort := 3478, sinAddr := 0xC6336401 } sizeofSockaddrIn

def answerThen (data : List UInt8) : List (List Select) :=
  let arrives (data : List UInt8) : Select :=
    .ready (fun i => if i.val = 0 then some (onFirst data) else none) { tvSec := 2, tvUsec := 0 }
  [[arrives answer, arrives data, .noMore]]

theorem valid_answer : Valid (List.replicate 12 0x07) (onFirst answer) :=
  ⟨rfl, by decide, .inl rfl, rfl⟩

theorem duplicate_kept :
    ∃ responses,
      stunRounds (fun _ => List.replicate 12 0x07) (answerThen answer) (start fun _ => []) =
        some responses ∧
      ResponsesKept (fun _ => List.replicate 12 0x07) responses := by
  refine ⟨_, rfl, (responses_kept_iff _ (fun _ => []) (answerThen answer) _ rfl).mpr ?_⟩
  intro i some
  by_cases first : i = 0
  · subst first
    exact ⟨onFirst answer, rfl, valid_answer⟩
  · simp [receiveReady, start, first] at some

theorem stray_loses_response :
    ∃ responses,
      stunRounds (fun _ => List.replicate 12 0x07) (answerThen []) (start fun _ => []) =
        some responses ∧
      ¬ ResponsesKept (fun _ => List.replicate 12 0x07) responses := by
  refine ⟨_, rfl, ?_⟩
  intro kept
  have held := (kept 0).mpr ⟨onFirst answer, .head _, valid_answer⟩
  exact held.1 rfl

end runs

end StunResponses

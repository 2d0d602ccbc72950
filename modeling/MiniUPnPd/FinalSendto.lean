import MiniUPnPd.AsyncSendto

/-!
The last attempts before the daemon ends. `finalize_sendto` goes through the queue of datagrams
again and again, without looking at their times or states, until the queue is empty, its half a
second is over, or the system fails it. A turn is what it meets in one round of its loop.
-/
namespace FinalSendto
open AsyncSendto Runs

section source

def FINALIZE_SENDTO_DELAY : Nat := 500

/-- The carry is made when the microseconds exceed a second, not when they reach it. -/
def carried (tvSec tvUsec : Nat) : Timeval :=
  if tvUsec > 1000000 then { tvSec := tvSec + 1, tvUsec := tvUsec - 1000000 }
  else { tvSec, tvUsec }

def deadlineOf (tv : TimeOfDay) : Timeval :=
  carried tv.tvSec (tv.tvUsec + FINALIZE_SENDTO_DELAY * 1000)

def past (now deadline : Timeval) : Bool :=
  now.tvSec > deadline.tvSec ∨ (now.tvSec = deadline.tvSec ∧ now.tvUsec > deadline.tvUsec)

/-- The seconds and microseconds that `select` is given. -/
def timeoutOf (deadline now : Timeval) : Int × Int :=
  let tvSec : Int := deadline.tvSec - now.tvSec
  let tvUsec : Int := deadline.tvUsec - now.tvUsec
  if tvUsec < 0 then (tvSec - 1, tvUsec + 1000000) else (tvSec, tvUsec)

/-- What the attempts meet, the time after them and whether `select` returns. -/
structure Turn where
  results : ScheduledSend → SendResult
  now : Option TimeOfDay
  selected : Bool

/-- The elements that stay, the highest of their sockets and what became of the others. An
    interrupted attempt is not repeated. -/
def finalizeLoop (results : ScheduledSend → SendResult) (clock : Nat) :
    List ScheduledSend → List ScheduledSend × Int × List Event
  | [] => ([], -1, [])
  | elt :: rest =>
      let (kept, maxFd, events) := finalizeLoop results clock rest
      match results elt with
      | .again => (elt :: kept, max elt.datagram.sockfd maxFd, events)
      | .sent _ => (kept, maxFd, .handed elt.submission clock :: events)
      | .interrupted => (kept, maxFd, .dropped elt.submission :: events)
      | .failed => (kept, maxFd, .dropped elt.submission :: events)

/-- A call of `select`: when it was made, and the longest it may wait. -/
structure Wait where
  now : TimeOfDay
  timeout : Int × Int

def discardAll (s : Sender) : Sender :=
  { s with sendList := [] }.note
    (s.sendList.map fun (elt : ScheduledSend) => .dropped elt.submission)

/-- The attempts of one turn. -/
def attemptAll (turn : Turn) (s : Sender) : Sender :=
  let (kept, _, events) := finalizeLoop turn.results s.clock s.sendList
  { s with sendList := kept }.note events

def maxFdOf (turn : Turn) (s : Sender) : Int :=
  (finalizeLoop turn.results s.clock s.sendList).2.1

/-- Nothing when the turns do not suffice. -/
def finalizeTurns (deadline : Timeval) : List Turn → Sender → Option (Sender × List Wait)
  | [], s => if s.sendList.isEmpty then some (s, []) else none
  | turn :: turns, s =>
      if s.sendList.isEmpty then some (s, [])
      else
        let maxFd := maxFdOf turn s
        let s := attemptAll turn s
        match turn.now with
        | none => some (s, [])
        | some now =>
          if past now.toTimeval deadline then some (discardAll s, [])
          else if maxFd ≥ 0 then
            let wait : Wait := { now, timeout := timeoutOf deadline now.toTimeval }
            if turn.selected then
              (finalizeTurns deadline turns s).map fun done => (done.1, wait :: done.2)
            else some (s, [wait])
          else finalizeTurns deadline turns s

def finalizeSendto (start : Option TimeOfDay) (turns : List Turn) (s : Sender) :
    Option (Sender × List Wait) :=
  match start with
  | none => some (s, [])
  | some start => finalizeTurns (deadlineOf start) turns s

end source

section account

/-- An accepted datagram is in one place, and is accepted once. -/
structure Placed (s : Sender) : Prop where
  once : ∀ i, handed s i + dropped s i + queued s i = accepted s i
  single : ∀ i, accepted s i ≤ 1

theorem Placed.inOnePlace {s : Sender} (placed : Placed s) : InOnePlace s := by
  intro i due there
  have once := placed.once i
  have single := placed.single i
  have known := accepted_of_mem there
  omega

theorem Placed.settled {s : Sender} (placed : Placed s) (empty : s.sendList = []) {i : Nat}
    {due : Option Nat} (there : .accepted i due ∈ s.record) : handed s i + dropped s i = 1 := by
  have once := placed.once i
  have single := placed.single i
  have known := accepted_of_mem there
  have none : queued s i = 0 := by simp [queued, empty]
  omega

section loop
variable (results : ScheduledSend → SendResult) (clock : Nat) (list : List ScheduledSend)

/-- What the loop does with the first element, given what it does with the others. -/
theorem finalizeLoop_cons (elt : ScheduledSend) {kept : List ScheduledSend} {maxFd : Int}
    {events : List Event} (tail : finalizeLoop results clock list = (kept, maxFd, events)) :
    let done := finalizeLoop results clock (elt :: list)
    (results elt = .again ∧ done = (elt :: kept, max elt.datagram.sockfd maxFd, events)) ∨
      ((∃ n, results elt = .sent n) ∧
        done = (kept, maxFd, .handed elt.submission clock :: events)) ∨
      (results elt ≠ .again ∧ (∀ n, results elt ≠ .sent n) ∧
        done = (kept, maxFd, .dropped elt.submission :: events)) := by
  cases result : results elt with
  | again => simp [finalizeLoop, tail, result]
  | sent n => simp [finalizeLoop, tail, result]
  | interrupted => simp [finalizeLoop, tail, result]
  | failed => simp [finalizeLoop, tail, result]

/-- Every element is kept, handed over or dropped. -/
theorem finalizeLoop_counts (i : Nat) :
    let done := finalizeLoop results clock list
    done.2.2.countP (isHanded i) + done.2.2.countP (isDropped i) +
        (done.1.countP fun elt => elt.submission = i) =
      (list.countP fun elt => elt.submission = i) ∧ done.2.2.countP (isAccepted i) = 0 := by
  induction list with
  | nil => simp [finalizeLoop]
  | cons elt rest ih =>
    rcases tail : finalizeLoop results clock rest with ⟨kept, maxFd, events⟩
    simp only [tail] at ih
    obtain ⟨total, none⟩ := ih
    obtain ⟨_, same⟩ | ⟨_, same⟩ | ⟨_, _, same⟩ := finalizeLoop_cons _ _ _ elt tail
    · simp only [same, List.countP_cons, none, and_true]
      omega
    · by_cases here : elt.submission = i
      · simp [same, isHanded, isDropped, isAccepted, none, here]
        omega
      · simp [same, isHanded, isDropped, isAccepted, none, here, Ne.symm here]
        omega
    · by_cases here : elt.submission = i
      · simp [same, isHanded, isDropped, isAccepted, none, here]
        omega
      · simp [same, isHanded, isDropped, isAccepted, none, here, Ne.symm here]
        omega

/-- Without a refusal nothing is dropped. -/
theorem finalizeLoop_dropped (i : Nat)
    (taken : ∀ elt ∈ list, results elt = .again ∨ ∃ n, results elt = .sent n) :
    (finalizeLoop results clock list).2.2.countP (isDropped i) = 0 := by
  induction list with
  | nil => simp [finalizeLoop]
  | cons elt rest ih =>
    rcases tail : finalizeLoop results clock rest with ⟨kept, maxFd, events⟩
    have none := ih fun other member => taken other (List.mem_cons_of_mem _ member)
    simp only [tail] at none
    obtain ⟨_, same⟩ | ⟨_, same⟩ | ⟨again, sent, same⟩ := finalizeLoop_cons _ _ _ elt tail
    · simp only [same, none]
    · simp [same, isDropped, none]
    · rcases taken elt List.mem_cons_self with waits | ⟨n, taken⟩
      · exact absurd waits again
      · exact absurd taken (sent n)

end loop

section turns
variable {s s' : Sender} {turns : List Turn} {deadline : Timeval} {waits : List Wait}

theorem attemptAll_placed (turn : Turn) (placed : Placed s) : Placed (attemptAll turn s) := by
  have counts := finalizeLoop_counts turn.results s.clock s.sendList
  unfold attemptAll
  generalize finalizeLoop turn.results s.clock s.sendList = done at counts
  obtain ⟨kept, maxFd, events⟩ := done
  simp only at counts
  constructor
  · intro i
    have before := placed.once i
    have loop := counts i
    simp only [handed, dropped, queued, accepted, Sender.note, List.countP_append] at before ⊢
    omega
  · intro i
    have before := placed.single i
    have loop := (counts i).2
    simp only [accepted, Sender.note, List.countP_append] at before ⊢
    omega

theorem discarded_counts (i : Nat) (list : List ScheduledSend) :
    let events := list.map fun elt => Event.dropped elt.submission
    events.countP (isDropped i) = (list.countP fun elt => elt.submission = i) ∧
      events.countP (isHanded i) = 0 ∧ events.countP (isAccepted i) = 0 := by
  induction list with
  | nil => simp
  | cons elt rest ih =>
    obtain ⟨total, handed, accepted⟩ := ih
    by_cases here : elt.submission = i
    · simp [isHanded, isDropped, isAccepted, handed, accepted, total, here]
    · simp [isHanded, isDropped, isAccepted, handed, accepted, total, here, Ne.symm here]

theorem discardAll_placed (placed : Placed s) : Placed (discardAll s) := by
  constructor
  · intro i
    obtain ⟨total, none, fresh⟩ := discarded_counts i s.sendList
    have before := placed.once i
    simp only [discardAll, handed, dropped, queued, accepted, Sender.note, List.countP_append,
      List.countP_nil] at before ⊢
    omega
  · intro i
    obtain ⟨_, _, fresh⟩ := discarded_counts i s.sendList
    have before := placed.single i
    simp only [discardAll, accepted, Sender.note, List.countP_append] at before ⊢
    omega

/-- What the attempts of a turn keep, and the end at the deadline if it is reached, holds when
    the function returns. -/
theorem finalizeTurns_keeps {holds : Sender → Prop}
    (attempt : ∀ turn ∈ turns, ∀ s, holds s → holds (attemptAll turn s))
    (discard : (∃ turn ∈ turns, ∃ now ∈ turn.now, past now.toTimeval deadline) →
      ∀ s, holds s → holds (discardAll s))
    (start : holds s) (done : finalizeTurns deadline turns s = some (s', waits)) : holds s' := by
  induction turns generalizing s waits with
  | nil =>
    simp only [finalizeTurns] at done
    split at done
    · cases done
      exact start
    · cases done
  | cons turn turns ih =>
    have next := attempt turn List.mem_cons_self s start
    have later : ∀ {s₁ waits₁}, holds s₁ →
        finalizeTurns deadline turns s₁ = some (s', waits₁) → holds s' := by
      intro s₁ waits₁ now done
      apply ih _ _ now done
      · exact fun turn member => attempt turn (List.mem_cons_of_mem _ member)
      · rintro ⟨turn, member, late⟩
        exact discard ⟨turn, List.mem_cons_of_mem _ member, late⟩
    simp only [finalizeTurns] at done
    split at done
    · cases done
      exact start
    · cases time : turn.now with
      | none =>
        simp only [time] at done
        cases done
        exact next
      | some now =>
        simp only [time] at done
        split at done
        · rename_i late
          cases done
          exact discard ⟨turn, List.mem_cons_self, now, time, late⟩ _ next
        · split at done
          · split at done
            · obtain ⟨⟨s₂, waits₂⟩, rest, same⟩ := Option.map_eq_some_iff.mp done
              cases same
              exact later next rest
            · cases done
              exact next
          · exact later next done

/-- With all times and all calls of `select` the queue is empty in the end. -/
theorem finalizeTurns_emptied (served : ∀ turn ∈ turns, turn.now.isSome ∧ turn.selected)
    (done : finalizeTurns deadline turns s = some (s', waits)) : s'.sendList = [] := by
  induction turns generalizing s waits with
  | nil =>
    simp only [finalizeTurns] at done
    split at done
    · rename_i empty
      cases done
      exact List.isEmpty_iff.mp empty
    · cases done
  | cons turn turns ih =>
    obtain ⟨timed, selected⟩ := served turn List.mem_cons_self
    have rest : ∀ {s₁ waits₁}, finalizeTurns deadline turns s₁ = some (s', waits₁) →
        s'.sendList = [] :=
      ih fun turn member => served turn (List.mem_cons_of_mem _ member)
    obtain ⟨now, time⟩ := Option.isSome_iff_exists.mp timed
    simp only [finalizeTurns, time, selected, ↓reduceIte] at done
    split at done
    · rename_i empty
      cases done
      exact List.isEmpty_iff.mp empty
    · split at done
      · cases done
        rfl
      · split at done
        · obtain ⟨⟨s₂, waits₂⟩, next, same⟩ := Option.map_eq_some_iff.mp done
          cases same
          exact rest next
        · exact rest done

/-- `select` is called before the deadline, with the time that is left. -/
theorem finalizeTurns_waits (done : finalizeTurns deadline turns s = some (s', waits)) :
    ∀ wait ∈ waits, past wait.now.toTimeval deadline = false ∧
      wait.timeout = timeoutOf deadline wait.now.toTimeval := by
  induction turns generalizing s waits with
  | nil =>
    simp only [finalizeTurns] at done
    split at done <;> cases done
    simp
  | cons turn turns ih =>
    simp only [finalizeTurns] at done
    split at done
    · cases done
      simp
    · cases time : turn.now with
      | none =>
        simp only [time] at done
        cases done
        simp
      | some now =>
        simp only [time] at done
        split at done
        · cases done
          simp
        · rename_i early
          have early := Bool.eq_false_iff.mpr early
          split at done
          · split at done
            · obtain ⟨⟨s₂, waits₂⟩, rest, same⟩ := Option.map_eq_some_iff.mp done
              cases same
              intro wait member
              rcases List.mem_cons.mp member with rfl | member
              · exact ⟨early, rfl⟩
              · exact ih rest wait member
            · cases done
              intro wait member
              obtain rfl := List.mem_singleton.mp member
              exact ⟨early, rfl⟩
          · exact ih done

/-- A turn that cannot read the time, or reads one after the deadline, is the last one. -/
theorem finalizeTurns_returns
    (late : ∃ turn ∈ turns, ∀ now ∈ turn.now, past now.toTimeval deadline) :
    (finalizeTurns deadline turns s).isSome := by
  induction turns generalizing s with
  | nil =>
    obtain ⟨turn, member, _⟩ := late
    cases member
  | cons turn turns ih =>
    simp only [finalizeTurns]
    split
    · rfl
    · cases time : turn.now with
      | none => rfl
      | some now =>
        simp only
        split
        · rfl
        · rename_i early
          have later : ∃ turn ∈ turns, ∀ now ∈ turn.now, past now.toTimeval deadline := by
            obtain ⟨other, member, late⟩ := late
            rcases List.mem_cons.mp member with rfl | member
            · exact absurd (late now time) early
            · exact ⟨other, member, late⟩
          split
          · split
            · rw [Option.isSome_map]
              exact ih later
            · rfl
          · exact ih later

end turns

section times

theorem carried_micros (tvSec tvUsec : Nat) :
    (carried tvSec tvUsec).micros = tvSec * 1000000 + tvUsec := by
  unfold carried Timeval.micros
  split
  · dsimp only
    omega
  · rfl

theorem carried_usec (tvSec : Nat) {tvUsec : Nat} (once : tvUsec ≤ 2000000) :
    (carried tvSec tvUsec).tvUsec ≤ 1000000 := by
  unfold carried
  split
  · dsimp only
    omega
  · dsimp only
    omega

theorem deadlineOf_micros (start : TimeOfDay) :
    (deadlineOf start).micros = start.micros + 500000 := by
  have delay : FINALIZE_SENDTO_DELAY = 500 := rfl
  rw [deadlineOf, carried_micros, delay, Timeval.micros]
  omega

theorem deadlineOf_usec (start : TimeOfDay) : (deadlineOf start).tvUsec ≤ 1000000 := by
  have normal := start.normal
  have delay : FINALIZE_SENDTO_DELAY = 500 := rfl
  rw [deadlineOf]
  apply carried_usec
  rw [delay]
  omega

theorem past_late {deadline : Timeval} (usec : deadline.tvUsec ≤ 1000000) (now : TimeOfDay)
    (late : past now.toTimeval deadline = true) : deadline.micros ≤ now.micros := by
  have normal := now.normal
  simp only [past, decide_eq_true_eq] at late
  simp only [Timeval.micros]
  omega

/-- A time that is not past the deadline leaves a wait up to the deadline. -/
theorem timeoutOf_early {deadline : Timeval} (usec : deadline.tvUsec ≤ 1000000) (now : TimeOfDay)
    (early : past now.toTimeval deadline = false) :
    let timeout := timeoutOf deadline now.toTimeval
    0 ≤ timeout.1 ∧ 0 ≤ timeout.2 ∧ timeout.2 ≤ 1000000 ∧
      now.micros + (timeout.1 * 1000000 + timeout.2) = deadline.micros := by
  have normal := now.normal
  simp only [past, decide_eq_false_iff_not, not_or, not_and, Nat.not_lt] at early
  simp only [timeoutOf, Timeval.micros]
  split
  · simp only
    omega
  · simp only
    omega

end times

end account

/-- The function returned `s'` after calls of `select` that were `waits`. -/
structure Finished (start : TimeOfDay) (turns : List Turn) (s s' : Sender) (waits : List Wait) :
    Prop where
  placed : InOnePlace s'
  settled : (∀ turn ∈ turns, turn.now.isSome ∧ turn.selected) → s'.sendList = [] ∧
    ∀ i due, .accepted i due ∈ s'.record → handed s' i + dropped s' i = 1
  spared : (∀ turn ∈ turns, ∀ now ∈ turn.now, now.micros < start.micros + 500000) →
    (∀ turn ∈ turns, ∀ elt, turn.results elt = .again ∨ ∃ n, turn.results elt = .sent n) →
    ∀ i, dropped s' i = dropped s i
  bounded : ∀ wait ∈ waits, 0 ≤ wait.timeout.1 ∧ 0 ≤ wait.timeout.2 ∧ wait.timeout.2 ≤ 1000000 ∧
    wait.now.micros + (wait.timeout.1 * 1000000 + wait.timeout.2) = start.micros + 500000

def clockAt (tvSec : Nat) (tenths : Fin 10) : TimeOfDay :=
  { tvSec, tvUsec := tenths * 100000, normal := by omega }

/-- A reply that would be due 250 ms after the end of the loop. -/
def pendingReply : List Op :=
  let d : Datagram := { sockfd := 4, buf := [1, 2, 3], flags := 0, destAddr := [], srcAddr := none }
  [.sendtoSchedule2 d 250 .failed (some (clockAt 10 9)) true]

/-- The socket never gets ready. -/
def blockedTurns : List Turn :=
  [{ results := fun _ => .again, now := some (clockAt 11 0), selected := true },
   { results := fun _ => .again, now := some (clockAt 11 5), selected := true }]

end FinalSendto

import MiniUPnPd.SelectTimeout

/-!
The deadlines of the main loop: the next announcement, the next expiry of a mapping and of a
pinhole, and the datagrams in the queue. A timeout is right when `select` takes it and it ends at
the first of them at the latest.
-/
namespace SelectDeadlines
open AsyncSendto Runs SelectTimeout

/-- What the timeout of a turn has to respect: the announcement in microseconds, the expiries in
    seconds, zero for none, and the times of the queue. -/
structure Deadlines where
  clock : TimeOfDay
  notify : Nat
  nextRule : Nat
  nextPinhole : Nat
  queue : List Timeval

structure Loop where
  lasttimeofday : TimeOfDay
  sender : Sender
  selected : Option (Deadlines × Timeout)

def Loop.start : Loop :=
  { lasttimeofday := { tvSec := 0, tvUsec := 0, normal := by decide }
    sender := .start
    selected := none }

def deadlines (v : NotifyInterval) (s : Loop) (turn : Turn) : Deadlines :=
  { clock := turn.clock
    notify :=
      (notifyTimeout v.seconds s.lasttimeofday turn.clock).2.micros + v.seconds * 1000000
    nextRule := nextRule turn
    nextPinhole := turn.pinholesCleaned.next
    queue := (turn.ops.foldl AsyncSendto.step s.sender).sendList.map (·.ts) }

/-- What is handed to `select`, with the queue after it. -/
def selectTimeout (v : NotifyInterval) (s : Loop) (turn : Turn) : Timeout × Sender :=
  let timeout := (notifyTimeout v.seconds s.lasttimeofday turn.clock).1
  let timeout := ruleTimeout turn.clock (nextRule turn) timeout
  let timeout := pinholeTimeout turn.clock turn.pinholesCleaned.next timeout
  sendTimeout turn (turn.ops.foldl AsyncSendto.step s.sender) timeout

def step (v : NotifyInterval) (s : Loop) (turn : Turn) : Loop :=
  let (timeout, sender) := selectTimeout v s turn
  { lasttimeofday := (notifyTimeout v.seconds s.lasttimeofday turn.clock).2
    sender
    selected := some (deadlines v s turn, timeout) }

/-- The timeout is one that `select` takes, and it ends when the first deadline comes, or at once
    if that has passed. -/
structure InTime (d : Deadlines) (t : Timeout) : Prop extends Normal t where
  notify : d.clock.micros + t.micros ≤ d.notify
  rule : d.nextRule ≠ 0 → d.clock.micros + t.micros ≤ max d.clock.micros (d.nextRule * 1000000)
  pinhole : d.nextPinhole ≠ 0 →
    d.clock.micros + t.micros ≤ max d.clock.micros (d.nextPinhole * 1000000)
  queue : ∀ ts ∈ d.queue, d.clock.micros + t.micros ≤ max d.clock.micros ts.micros

def Holds (s : Loop) : Prop := ∀ d t, s.selected = some (d, t) → InTime d t

namespace Deadlines

/-- Neither a mapping nor a pinhole expires before this time. -/
def Early (d : Deadlines) (time : Int) : Prop :=
  (d.nextRule ≠ 0 → time ≤ d.nextRule * 1000000) ∧
    (d.nextPinhole ≠ 0 → time ≤ d.nextPinhole * 1000000)

/-- A queued datagram can be sent at once. -/
def Overdue (d : Deadlines) : Prop := ∃ ts ∈ d.queue, ts.micros ≤ d.clock.micros

/-- The timestamps of 32 bits have room for the seconds of the clock. -/
def Ahead (d : Deadlines) : Prop :=
  (d.nextRule ≠ 0 → d.clock.tvSec < d.nextRule) ∧
    (d.nextPinhole ≠ 0 → d.clock.tvSec < d.nextPinhole)

/-- A queued datagram comes before every other deadline. -/
def SendFirst (d : Deadlines) : Prop := ∃ ts ∈ d.queue, ts.micros ≤ d.notify ∧ d.Early ts.micros

/-- The datagram that comes before everything else has a whole second in its microseconds, and the
    clock has none. -/
def Overfull (d : Deadlines) : Prop :=
  d.clock.tvUsec = 0 ∧ ∃ ts ∈ d.queue, ts.tvUsec = 1000000 ∧
    (∀ other ∈ d.queue, ts.micros ≤ other.micros) ∧ ts.micros ≤ d.notify ∧ d.Early ts.micros

/-- The announcement comes before the expiries, unless the clock is at a whole second, and that
    of the pinholes is less than 2^31 seconds away. -/
def NotifyFirst (d : Deadlines) : Prop :=
  (d.nextPinhole ≠ 0 → d.nextPinhole < d.clock.tvSec + 2 ^ 31) ∧
    (d.clock.tvUsec = 0 ∨ d.Early d.notify)

def Exact (d : Deadlines) : Prop :=
  d.Overdue ∨ d.Ahead ∧ ¬ d.Overfull ∧ (d.SendFirst ∨ d.NotifyFirst)

instance decidableEarly (d : Deadlines) (time : Int) : Decidable (d.Early time) :=
  inferInstanceAs (Decidable (_ ∧ _))

instance decidableOverfull (d : Deadlines) : Decidable d.Overfull :=
  inferInstanceAs (Decidable (_ ∧ ∃ ts ∈ d.queue, _))

instance decidableExact (d : Deadlines) : Decidable d.Exact :=
  inferInstanceAs (Decidable ((∃ ts ∈ d.queue, ts.micros ≤ d.clock.micros) ∨
    (_ ∧ _) ∧ ¬ d.Overfull ∧ ((∃ ts ∈ d.queue, _) ∨ (_ ∧ _))))

end Deadlines

/-- The clock does not go back, and in one turn it does not pass a multiple of 2^32 seconds. -/
def SameEra (clock : TimeOfDay) (e : Expiry) : Prop :=
  clock.tvSec ≤ e.time ∧ e.time / 2 ^ 32 = clock.tvSec / 2 ^ 32

def Steady (s : Loop) (turn : Turn) : Prop :=
  s.lasttimeofday.tvSec ≤ turn.clock.tvSec ∧
    SameEra turn.clock turn.rulesCleaned ∧ SameEra turn.clock turn.pinholesCleaned

instance decidableSteady (s : Loop) (turn : Turn) : Decidable (Steady s turn) :=
  inferInstanceAs (Decidable (_ ∧ (_ ∧ _) ∧ (_ ∧ _)))

namespace Deadlines
variable {d : Deadlines} {t : Timeout} {ts : Timeval} {wake other : Int}

theorem early_mono (early : d.Early other) (sooner : wake ≤ other) : d.Early wake := by
  constructor
  · intro expires
    exact sooner.trans (early.1 expires)
  · intro expires
    exact sooner.trans (early.2 expires)

/-- As long as nothing is due, no deadline has to be replaced by the clock. -/
theorem inTime_iff (ahead : d.Ahead) (waits : ¬ d.Overdue) :
    InTime d t ↔ Normal t ∧ d.clock.micros + t.micros ≤ d.notify ∧
      d.Early (d.clock.micros + t.micros) ∧
        ∀ ts ∈ d.queue, d.clock.micros + t.micros ≤ ts.micros := by
  have normal := d.clock.normal
  have clock : d.clock.micros = d.clock.tvSec * 1000000 + d.clock.tvUsec := rfl
  constructor
  · intro inTime
    refine ⟨inTime.toNormal, inTime.notify, ⟨?_, ?_⟩, ?_⟩
    · intro expires
      have bound := inTime.rule expires
      have later := ahead.1 expires
      omega
    · intro expires
      have bound := inTime.pinhole expires
      have later := ahead.2 expires
      omega
    · intro ts member
      have bound := inTime.queue ts member
      have later : ¬ ts.micros ≤ d.clock.micros := fun late => waits ⟨ts, member, late⟩
      omega
  · rintro ⟨normal, notify, ⟨rule, pinhole⟩, queue⟩
    refine ⟨normal, notify, ?_, ?_, ?_⟩
    · intro expires
      have bound := rule expires
      omega
    · intro expires
      have bound := pinhole expires
      omega
    · intro ts member
      have bound := queue ts member
      omega

theorem overdue_iff (least : Least d.queue ts) (usec : ts.tvUsec ≤ 1000000) :
    d.Overdue ↔ ts.micros ≤ d.clock.micros := by
  constructor
  · rintro ⟨other, member, late⟩
    exact (least_micros usec least member).trans late
  · intro late
    exact ⟨ts, least.1, late⟩

theorem sendFirst_iff (least : Least d.queue ts) (usec : ts.tvUsec ≤ 1000000) :
    d.SendFirst ↔ ts.micros ≤ d.notify ∧ d.Early ts.micros := by
  constructor
  · rintro ⟨other, member, notify, early⟩
    have sooner := least_micros usec least member
    exact ⟨sooner.trans notify, early_mono early (by exact_mod_cast sooner)⟩
  · intro first
    exact ⟨ts, least.1, first⟩

theorem overfull_iff (least : Least d.queue ts) (usec : ts.tvUsec ≤ 1000000) :
    d.Overfull ↔ d.clock.tvUsec = 0 ∧ ts.tvUsec = 1000000 ∧ ts.micros ≤ d.notify ∧
      d.Early ts.micros := by
  constructor
  · rintro ⟨whole, other, member, full, first, notify, early⟩
    have sooner := least_micros usec least member
    refine ⟨whole, least_usec least usec member full (first ts least.1), sooner.trans notify, ?_⟩
    exact early_mono early (by exact_mod_cast sooner)
  · rintro ⟨whole, full, notify, early⟩
    exact ⟨whole, ts, least.1, full, fun other member => least_micros usec least member,
      notify, early⟩

/-- What the announcement and the two expiries make of the time to wake up, in microseconds. -/
structure Lowered (d : Deadlines) (wake : Int) : Prop where
  attained : wake = d.notify ∨
    (d.nextRule ≠ 0 ∧ wake = d.nextRule * 1000000 + d.clock.tvUsec) ∨
    (d.nextPinhole ≠ 0 ∧ wake = d.nextPinhole * 1000000 + d.clock.tvUsec)
  exact : wake ≤ d.notify ∧ d.Early wake ↔ d.NotifyFirst

/-- A datagram lowers it further. -/
theorem lowered_min (lowered : Lowered d wake) (send : Int) :
    min wake send ≤ d.notify ∧ d.Early (min wake send) ↔
      (send ≤ d.notify ∧ d.Early send) ∨ d.NotifyFirst := by
  rw [← lowered.exact]
  constructor
  · rintro ⟨notify, early⟩
    rcases le_total wake send with first | first
    · rw [min_eq_left first] at notify early
      exact .inr ⟨notify, early⟩
    · rw [min_eq_right first] at notify early
      exact .inl ⟨notify, early⟩
  · rintro (⟨notify, early⟩ | ⟨notify, early⟩)
    · exact ⟨(min_le_right _ _).trans notify, early_mono early (min_le_right _ _)⟩
    · exact ⟨(min_le_left _ _).trans notify, early_mono early (min_le_left _ _)⟩

/-- At a whole second the datagram sets the timeout exactly if it comes first. -/
theorem lowered_send (lowered : Lowered d wake) (whole : d.clock.tvUsec = 0) {send : Int}
    (first : send ≤ d.notify ∧ d.Early send) : send ≤ wake := by
  obtain ⟨notify, rule, pinhole⟩ := first
  rcases lowered.attained with same | ⟨expires, same⟩ | ⟨expires, same⟩
  · omega
  · have before := rule expires
    omega
  · have before := pinhole expires
    omega

end Deadlines

section turns
variable {v : NotifyInterval} {s : Loop} {turn : Turn}

/-- The timeout as the announcement and the mappings leave it. -/
def ruleLowered (v : NotifyInterval) (s : Loop) (turn : Turn) : Timeout :=
  ruleTimeout turn.clock (nextRule turn) (notifyTimeout v.seconds s.lasttimeofday turn.clock).1

/-- The timeout before the queue is looked at. -/
def lowered (v : NotifyInterval) (s : Loop) (turn : Turn) : Timeout :=
  pinholeTimeout turn.clock turn.pinholesCleaned.next (ruleLowered v s turn)

def queueBefore (s : Loop) (turn : Turn) : Sender := turn.ops.foldl AsyncSendto.step s.sender

theorem selectTimeout_eq (v : NotifyInterval) (s : Loop) (turn : Turn) :
    selectTimeout v s turn = sendTimeout turn (queueBefore s turn) (lowered v s turn) := by
  rfl

theorem deadlines_queue (v : NotifyInterval) (s : Loop) (turn : Turn) :
    (deadlines v s turn).queue = (queueBefore s turn).sendList.map (·.ts) := by
  rfl

theorem deadlines_clock (v : NotifyInterval) (s : Loop) (turn : Turn) :
    (deadlines v s turn).clock = turn.clock := by
  rfl

theorem nextRule_fits (turn : Turn) : nextRule turn < 2 ^ 32 := by
  have fits := turn.fits
  have fits' := turn.rulesCleaned.fits
  unfold nextRule
  split
  · exact fits'
  · exact fits

theorem cleaned_later {clock : TimeOfDay} {e : Expiry} (same : SameEra clock e)
    (expires : e.next ≠ 0) : clock.tvSec % 2 ^ 32 < e.next := by
  obtain ⟨later, era⟩ := same
  have next := e.later
  omega

theorem nextRule_later (same : SameEra turn.clock turn.rulesCleaned)
    (expires : nextRule turn ≠ 0) : turn.clock.tvSec % 2 ^ 32 < nextRule turn := by
  unfold nextRule at expires ⊢
  split at expires
  · rename_i cleaned
    rw [if_pos cleaned]
    exact cleaned_later same expires
  · rename_i kept
    rw [if_neg kept]
    omega

/-- Before the clock reaches 2^32 seconds the expiries are ahead of it, and from then on behind. -/
theorem ahead_of_small (steady : Steady s turn) (small : turn.clock.tvSec < 2 ^ 32) :
    (deadlines v s turn).Ahead := by
  obtain ⟨_, rules, pinholes⟩ := steady
  constructor
  · intro expires
    have later := nextRule_later rules expires
    simp only [deadlines]
    omega
  · intro expires
    have later := cleaned_later pinholes expires
    simp only [deadlines] at expires ⊢
    omega

theorem rule_lowered (steady : s.lasttimeofday.tvSec ≤ turn.clock.tvSec)
    (ahead : (deadlines v s turn).Ahead) :
    let t := ruleLowered v s turn
    let d := deadlines v s turn
    Normal t ∧ t.tvSec < 2 ^ 31 ∧ d.clock.micros + t.micros ≤ d.notify ∧
      (d.nextRule ≠ 0 → d.clock.micros + t.micros ≤ d.nextRule * 1000000 + d.clock.tvUsec) ∧
        (d.clock.micros + t.micros = d.notify ∨
          (d.nextRule ≠ 0 ∧
            d.clock.micros + t.micros = d.nextRule * 1000000 + d.clock.tvUsec)) := by
  obtain ⟨normal, small, _, total⟩ := notifyTimeout_spec v steady
  have clock : turn.clock.micros = turn.clock.tvSec * 1000000 + turn.clock.tvUsec := rfl
  simp only [ruleLowered, deadlines]
  by_cases none : nextRule turn = 0
  · rw [none, ruleTimeout_zero]
    exact ⟨normal, small, le_of_eq total, by simp, .inl total⟩
  · obtain ⟨normal', small', same⟩ := ruleTimeout_spec normal small (ahead.1 none)
    simp only [untilExpiry, deadlines] at same
    refine ⟨normal', small', ?_, ?_, ?_⟩ <;> omega

theorem notify_near (steady : s.lasttimeofday.tvSec ≤ turn.clock.tvSec) :
    let d := deadlines v s turn
    d.clock.micros < d.notify ∧ d.notify < d.clock.micros + 2 ^ 31 * 1000000 := by
  obtain ⟨normal, small, positive, total⟩ := notifyTimeout_spec v steady
  have micros := normal.micros
  simp only [deadlines]
  simp only [Timeout.micros] at positive total
  omega

theorem lowered_spec (steady : s.lasttimeofday.tvSec ≤ turn.clock.tvSec)
    (ahead : (deadlines v s turn).Ahead) :
    Normal (lowered v s turn) ∧
      (deadlines v s turn).Lowered (turn.clock.micros + (lowered v s turn).micros) := by
  obtain ⟨normal, small, notify, rule, attained⟩ := rule_lowered steady ahead
  have nearNotify := @notify_near v s turn steady
  have clock : turn.clock.micros = turn.clock.tvSec * 1000000 + turn.clock.tvUsec := rfl
  have pinholes : (deadlines v s turn).nextPinhole = turn.pinholesCleaned.next := rfl
  have now : (deadlines v s turn).clock = turn.clock := rfl
  simp only [now] at notify rule attained nearNotify
  by_cases none : turn.pinholesCleaned.next = 0
  · rw [lowered, none, pinholeTimeout_zero]
    refine ⟨normal, ?_, ?_⟩
    · rcases attained with same | same
      · exact .inl same
      · exact .inr (.inl same)
    · simp only [Deadlines.NotifyFirst, Deadlines.Early, now, pinholes, none]
      omega
  · have later := ahead.2 none
    by_cases near : turn.pinholesCleaned.next < turn.clock.tvSec + 2 ^ 31
    · obtain ⟨normal', same⟩ := pinholeTimeout_spec normal later near
      simp only [untilExpiry, now, pinholes] at same
      rw [lowered]
      refine ⟨normal', ?_, ?_⟩
      · simp only [now, pinholes]
        omega
      · simp only [Deadlines.NotifyFirst, Deadlines.Early, now, pinholes]
        omega
    · obtain ⟨normal', same⟩ :=
        pinholeTimeout_far normal turn.pinholesCleaned.fits (Nat.le_of_not_lt near)
      simp only [untilExpiry] at same
      rw [lowered]
      refine ⟨normal', ?_, ?_⟩
      · simp only [now, pinholes]
        omega
      · simp only [Deadlines.NotifyFirst, Deadlines.Early, now, pinholes]
        omega

/-- When the clock has passed the timestamps, an expiry makes the timeout negative or is not
    heeded. -/
theorem lowered_behind (steady : Steady s turn) (behind : ¬ (deadlines v s turn).Ahead) :
    (lowered v s turn).tvSec < 0 ∨ Normal (lowered v s turn) ∧
      turn.pinholesCleaned.next ≠ 0 ∧ turn.pinholesCleaned.next * 1000000 ≤ turn.clock.micros ∧
        turn.clock.micros + (lowered v s turn).micros = (deadlines v s turn).notify := by
  have large : 2 ^ 32 ≤ turn.clock.tvSec :=
    Nat.le_of_not_lt fun small => behind (ahead_of_small steady small)
  obtain ⟨normal, small, _, total⟩ := notifyTimeout_spec v steady.1
  have clock : turn.clock.micros = turn.clock.tvSec * 1000000 + turn.clock.tvUsec := rfl
  have rule := nextRule_fits turn
  have pinhole := turn.pinholesCleaned.fits
  have seconds := normal.seconds
  by_cases none : nextRule turn = 0
  · have expires : turn.pinholesCleaned.next ≠ 0 := by
      intro none'
      exact behind ⟨fun some => absurd none some, fun some => absurd none' some⟩
    rw [lowered, ruleLowered, none, ruleTimeout_zero]
    unfold pinholeTimeout
    split
    · left
      dsimp only
      omega
    · exact .inr ⟨normal, expires, by omega, total⟩
  · left
    rw [lowered, ruleLowered, ruleTimeout, if_pos ⟨none, by omega⟩]
    unfold pinholeTimeout
    split
    · dsimp only
      omega
    · dsimp only
      omega

theorem queue_usec (carried : Carried (queueBefore s turn)) {ts : Timeval}
    (member : ts ∈ (queueBefore s turn).sendList.map (·.ts)) : ts.tvUsec ≤ 1000000 := by
  obtain ⟨elt, inside, rfl⟩ := List.mem_map.mp member
  exact carried elt inside

theorem behind_late (steady : Steady s turn) (carried : Carried (queueBefore s turn))
    (behind : ¬ (deadlines v s turn).Ahead) (waits : ¬ (deadlines v s turn).Overdue) :
    ¬ InTime (deadlines v s turn) (selectTimeout v s turn).1 := by
  intro inTime
  have near := (@notify_near v s turn steady.1).1
  rw [selectTimeout_eq] at inTime
  rcases getNextScheduledSend_cases (queueBefore s turn) with ⟨_, empty⟩ | ⟨ts, next, least⟩
  · rw [sendTimeout_none empty] at inTime
    rcases lowered_behind steady behind with negative | ⟨_, expires, passed, total⟩
    · have seconds := inTime.seconds
      omega
    · have bound := inTime.pinhole expires
      simp only [deadlines] at bound near total
      omega
  · have usec := queue_usec carried least.1
    have later : turn.clock.micros < ts.micros := by
      rw [Deadlines.overdue_iff (by exact least) usec] at waits
      exact Nat.lt_of_not_le waits
    rcases lowered_behind steady behind with negative | ⟨normal, expires, passed, total⟩
    · rw [sendTimeout_negative next usec later negative] at inTime
      have seconds := inTime.seconds
      omega
    · have wake := (sendTimeout_spec next usec later normal).2
      have bound := inTime.pinhole expires
      simp only [deadlines] at bound near total
      omega

theorem overdue_inTime (steady : Steady s turn) (carried : Carried (queueBefore s turn))
    (due : (deadlines v s turn).Overdue) :
    InTime (deadlines v s turn) (selectTimeout v s turn).1 := by
  have near := (@notify_near v s turn steady.1).1
  rcases getNextScheduledSend_cases (queueBefore s turn) with ⟨empty, _⟩ | ⟨ts, next, least⟩
  · obtain ⟨ts, member, _⟩ := due
    rw [deadlines_queue, empty] at member
    cases member
  · have usec := queue_usec carried least.1
    rw [Deadlines.overdue_iff (by exact least) usec] at due
    rw [selectTimeout_eq, sendTimeout_reached next least.1 ((reached_iff usec _).mpr due)]
    refine ⟨⟨le_rfl, le_rfl, by decide⟩, ?_, ?_, ?_, ?_⟩
    all_goals simp only [Timeout.micros]; omega

theorem ahead_inTime_iff (steady : Steady s turn) (carried : Carried (queueBefore s turn))
    (ahead : (deadlines v s turn).Ahead) (waits : ¬ (deadlines v s turn).Overdue) :
    InTime (deadlines v s turn) (selectTimeout v s turn).1 ↔
      ¬ (deadlines v s turn).Overfull ∧
        ((deadlines v s turn).SendFirst ∨ (deadlines v s turn).NotifyFirst) := by
  obtain ⟨normal, shape⟩ := @lowered_spec v s turn steady.1 ahead
  rw [Deadlines.inTime_iff ahead waits, selectTimeout_eq]
  rcases getNextScheduledSend_cases (queueBefore s turn) with ⟨empty, none⟩ | ⟨ts, next, least⟩
  · have nothing : (deadlines v s turn).queue = [] := by
      rw [deadlines_queue, empty]
      rfl
    have exact := shape.exact
    rw [sendTimeout_none none, deadlines_clock]
    simpa [Deadlines.Overfull, Deadlines.SendFirst, nothing, normal] using exact
  · have usec := queue_usec carried least.1
    have later := waits
    rw [Deadlines.overdue_iff (by exact least) usec, Nat.not_le] at later
    obtain ⟨whole, total⟩ := sendTimeout_spec next usec later normal
    have inQueue : ∀ ts' ∈ (deadlines v s turn).queue, turn.clock.micros +
        (sendTimeout turn (queueBefore s turn) (lowered v s turn)).1.micros ≤ ts'.micros := by
      intro ts' member
      have first := least_micros usec (by exact least) member
      omega
    have first := Deadlines.lowered_min shape ts.micros
    rw [deadlines_clock, whole, total, Deadlines.overfull_iff (by exact least) usec,
      Deadlines.sendFirst_iff (by exact least) usec, deadlines_clock]
    rw [total] at inQueue
    constructor
    · rintro ⟨notFull, notify, early, _⟩
      refine ⟨?_, by simpa using first.mp ⟨notify, early⟩⟩
      rintro ⟨noUsec, full, sendNotify, sendEarly⟩
      exact notFull ⟨noUsec, full, Deadlines.lowered_send shape noUsec ⟨by omega, sendEarly⟩⟩
    · rintro ⟨notFull, firsts⟩
      obtain ⟨notify, early⟩ := first.mpr (by simpa using firsts)
      refine ⟨?_, notify, early, inQueue⟩
      rintro ⟨noUsec, full, sooner⟩
      rw [min_eq_right sooner] at notify early
      exact notFull ⟨noUsec, full, by omega, early⟩

/-- A turn hands `select` a timeout that is right exactly if its deadlines allow it. -/
theorem selectTimeout_iff (steady : Steady s turn) (carried : Carried (queueBefore s turn)) :
    InTime (deadlines v s turn) (selectTimeout v s turn).1 ↔ (deadlines v s turn).Exact := by
  unfold Deadlines.Exact
  by_cases due : (deadlines v s turn).Overdue
  · have inTime := @overdue_inTime v s turn steady carried due
    simp only [inTime, due, true_or]
  · by_cases ahead : (deadlines v s turn).Ahead
    · simpa only [due, ahead, true_and, false_or] using ahead_inTime_iff steady carried ahead due
    · have late := behind_late steady carried ahead due
      simp only [late, due, ahead, false_and, or_self]

theorem step_carried_loop (v : NotifyInterval) (s : Loop) (turn : Turn)
    (carried : Carried s.sender) : Carried (step v s turn).sender := by
  have before := ops_carried turn.ops carried
  simp only [step, selectTimeout, sendTimeout]
  split
  · exact before
  · have woken := getSendtoFds_carried turn.writefds turn.maxFd turn.clock before
    split
    · exact woken
    · split
      · exact woken
      · exact woken

theorem step_holds_iff (carried : Carried s.sender) (steady : Steady s turn) :
    Holds (step v s turn) ↔ (deadlines v s turn).Exact := by
  rw [← selectTimeout_iff steady (ops_carried turn.ops carried)]
  constructor
  · intro holds
    exact holds _ _ rfl
  · intro inTime d t same
    obtain ⟨rfl, rfl⟩ := Prod.mk.inj (Option.some.inj same)
    exact inTime

end turns

/-- In every run whose clock does not go back, all timeouts are ones that `select` takes and none
    ends after a deadline exactly if, in every turn, a datagram is due or the clock has not passed
    the timestamps, no full second of microseconds comes first, and a datagram or the announcement
    comes before the expiries. -/
theorem timeouts_in_time_iff (v : NotifyInterval) {turns : List Turn}
    (steady : Admitted (step v) Steady Loop.start turns) :
    Always (step v) Holds Loop.start turns ↔
      Admitted (step v) (fun s turn => (deadlines v s turn).Exact) Loop.start turns := by
  have start : Carried Loop.start.sender := by simp [Carried, Loop.start, Sender.start]
  have empty : Holds Loop.start := by simp [Holds, Loop.start]
  refine allowed_always_iff (fun s => Carried s.sender) ?_ ?_ start empty steady
  · intro s turn carried _
    exact step_carried_loop v s turn carried
  · intro s turn carried steady _
    exact step_holds_iff carried steady

def thirty : NotifyInterval := { seconds := 30, positive := by decide, fits := by decide }

/-- One pinhole, which expires at 100 s. -/
def leased : Iptpinhole.Firewall :=
  { chain := []
    pinholeList := [{ saddr := 0, daddr := 2, timestamp := 100, sport := 0, dport := 80, uid := 1,
                      proto := 6, desc := "web".toList }]
    nextUid := 2
    ip6tcResults := []
    distinct := by decide }

/-- A turn without mappings that expire. -/
def turnAt (clock : TimeOfDay) (ops : List Op) (fw : Iptpinhole.Firewall) : Turn :=
  { ops
    clock
    nextruletocleanTimestamp := 0
    fits := by decide
    rulesCleaned := { time := clock.tvSec, next := 0, fits := by decide, later := .inl rfl }
    pinholesCleaned := .ofWritten (iptCleaned clock.tvSec fw)
    writefds := []
    maxFd := 7 }

/-- An announcement, and then a reply that is scheduled 1500 ms ahead. -/
def replyScheduled (tvSec tvUsec : Nat) (normal : tvUsec < 1000000)
    (fw : Iptpinhole.Firewall) : List Turn :=
  let d : Datagram := { sockfd := 4, buf := [1, 2, 3], flags := 0, destAddr := [], srcAddr := none }
  [turnAt { tvSec := 10, tvUsec := 500000, normal := by decide } [] fw,
   turnAt { tvSec, tvUsec, normal }
     [.sendtoSchedule2 d 1500 .failed
       (some { tvSec := 10, tvUsec := 500000, normal := by decide }) true] fw]

theorem timeouts_in_time_reply :
    Always (step thirty) Holds Loop.start (replyScheduled 10 700000 (by decide) leased) :=
  (timeouts_in_time_iff thirty (by decide)).mpr (by decide)

/-- The reply is due at 11 s and 1000000 microseconds, and at 11 s the timeout is 1000000
    microseconds. -/
theorem whole_second_refused :
    ¬ ∀ (v : NotifyInterval) (turns : List Turn), Admitted (step v) Steady Loop.start turns →
      Always (step v) Holds Loop.start turns := by
  intro all
  have last := always_last (all thirty (replyScheduled 11 0 (by decide) .empty) (by decide))
  have inTime := last _ { tvSec := 0, tvUsec := 1000000 } (by rfl)
  exact absurd inTime.micros.2 (by decide)

end SelectDeadlines

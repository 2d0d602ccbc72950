import MiniUPnPd.PortSearch

/-!
The port search of AddAnyPortMapping as the calls of `upnp_redirect` that it makes. The loop
has no bound of its own: it ends because its two cursors have, together, at most 65535 steps to
go, and it covers the ports because they go these steps one at a time.
-/
namespace AnyPortSearch
open PortSearch UpnpRedirect UpnpSoap WordBitmap

/-- What a search leaves: the calls it has made with their results, its own result, the port it
    ended at and the daemon. -/
structure Outcome where
  calls : List (UInt16 × Int)
  r : Int
  eport : UInt16
  daemon : Daemon

def Outcome.after (call : UInt16 × Int) (o : Outcome) : Outcome :=
  { o with calls := call :: o.calls }

def stops (r : Int) : Prop := r = 0 ∨ r = -1

/-- The loop, without a bound on its rounds. -/
inductive Searches (allowed : Words 32 2048) (redirect : UInt16 → Daemon → Int × Daemon) :
    Tried → Daemon → Outcome → Prop where
  | exhausted {t : Tried} {d : Daemon} (last : t.next = none) :
      Searches allowed redirect t d { calls := [], r := 1, eport := t.eport, daemon := d }
  | forbidden {t t' : Tried} {d : Daemon} {o : Outcome} (next : t.next = some t')
      (closed : bit allowed t'.eport.toNat = false) (rest : Searches allowed redirect t' d o) :
      Searches allowed redirect t d o
  | done {t t' : Tried} {d : Daemon} (next : t.next = some t')
      (permitted : bit allowed t'.eport.toNat = true) (stop : stops (redirect t'.eport d).1) :
      Searches allowed redirect t d
        { calls := [(t'.eport, (redirect t'.eport d).1)]
          r := (redirect t'.eport d).1
          eport := t'.eport
          daemon := (redirect t'.eport d).2 }
  | goesOn {t t' : Tried} {d : Daemon} {o : Outcome} (next : t.next = some t')
      (permitted : bit allowed t'.eport.toNat = true) (further : ¬ stops (redirect t'.eport d).1)
      (rest : Searches allowed redirect t' (redirect t'.eport d).2 o) :
      Searches allowed redirect t d (o.after (t'.eport, (redirect t'.eport d).1))

section loop
variable {allowed : Words 32 2048} {redirect : UInt16 → Daemon → Int × Daemon} {t : Tried}
  {d : Daemon} {o o' : Outcome}

theorem searches_unique (left : Searches allowed redirect t d o)
    (right : Searches allowed redirect t d o') : o = o' := by
  induction left generalizing o' with
  | exhausted last =>
    cases right with
    | exhausted => rfl
    | forbidden next => simp [last] at next
    | done next => simp [last] at next
    | goesOn next => simp [last] at next
  | forbidden next closed rest ih =>
    cases right with
    | exhausted last => simp [last] at next
    | forbidden next' _ rest' =>
      obtain rfl := Option.some.inj (next.symm.trans next')
      exact ih rest'
    | done next' permitted =>
      obtain rfl := Option.some.inj (next.symm.trans next')
      simp [closed] at permitted
    | goesOn next' permitted =>
      obtain rfl := Option.some.inj (next.symm.trans next')
      simp [closed] at permitted
  | done next permitted stop =>
    cases right with
    | exhausted last => simp [last] at next
    | forbidden next' closed =>
      obtain rfl := Option.some.inj (next.symm.trans next')
      simp [closed] at permitted
    | done next' =>
      obtain rfl := Option.some.inj (next.symm.trans next')
      rfl
    | goesOn next' _ further =>
      obtain rfl := Option.some.inj (next.symm.trans next')
      exact absurd stop further
  | goesOn next permitted further rest ih =>
    cases right with
    | exhausted last => simp [last] at next
    | forbidden next' closed =>
      obtain rfl := Option.some.inj (next.symm.trans next')
      simp [closed] at permitted
    | done next' _ stop =>
      obtain rfl := Option.some.inj (next.symm.trans next')
      exact absurd stop further
    | goesOn next' _ _ rest' =>
      obtain rfl := Option.some.inj (next.symm.trans next')
      rw [ih rest']

/-- Along a path of the two cursors, the calls go to its permitted ports, in this order, until
    one of them stops the search. -/
structure Follows (ports : List UInt16) (o : Outcome) : Prop where
  order : o.calls.map Prod.fst <+: ports
  all : o.r = 1 → o.calls.map Prod.fst = ports ∧ ∀ call ∈ o.calls, ¬ stops call.2
  last : o.r = 1 ∨ stops o.r ∧ o.calls.getLast? = some (o.eport, o.r)

theorem follows_after {ports : List UInt16} {port : UInt16} {r : Int} (further : ¬ stops r)
    (follows : Follows ports o) : Follows (port :: ports) (o.after (port, r)) := by
  constructor
  · simpa [Outcome.after] using follows.order
  · intro one
    obtain ⟨same, none⟩ := follows.all one
    refine ⟨by simp [Outcome.after, same], ?_⟩
    intro call made
    rcases List.mem_cons.mp made with rfl | made
    · exact further
    · exact none call made
  · rcases follows.last with one | ⟨stop, last⟩
    · exact .inl one
    · refine .inr ⟨stop, ?_⟩
      have made : o.calls ≠ [] := by
        intro empty
        simp [empty] at last
      rw [Outcome.after, List.getLast?_cons_of_ne_nil made]
      exact last

theorem searches_path {ports : List UInt16} (path : Path t ports) (d : Daemon) :
    ∃ o, Searches allowed redirect t d o ∧
      Follows (ports.filter fun port => bit allowed port.toNat) o := by
  induction path generalizing d with
  | ends last =>
    refine ⟨_, .exhausted last, ?_⟩
    exact ⟨List.prefix_refl [], fun _ => ⟨rfl, by simp⟩, .inl rfl⟩
  | @goes t t' ports next rest ih =>
    rw [List.filter_cons]
    cases permitted : bit allowed t'.eport.toNat with
    | false =>
      obtain ⟨o, searches, follows⟩ := ih d
      exact ⟨o, .forbidden next permitted searches, follows⟩
    | true =>
      by_cases stop : stops (redirect t'.eport d).1
      · refine ⟨_, .done next permitted stop, ?_⟩
        constructor
        · simp
        · intro one
          rcases stop with zero | negative
          · simp [zero] at one
          · simp [negative] at one
        · exact .inr ⟨stop, rfl⟩
      · obtain ⟨o, searches, follows⟩ := ih (redirect t'.eport d).2
        exact ⟨_, .goesOn next permitted stop searches, follows_after stop follows⟩

/-- The bounded loop is this one, wherever the bound is not reached. -/
theorem searchAround_searches {ports : List UInt16} (path : Path t ports) {fuel : Nat}
    (enough : ports.length < fuel) (searches : Searches allowed redirect t d o) :
    searchAround allowed redirect fuel t d = ((o.r, o.eport), o.daemon) := by
  induction searches generalizing ports fuel with
  | exhausted last =>
    obtain ⟨fuel, rfl⟩ : ∃ f, fuel = f + 1 := ⟨fuel - 1, by omega⟩
    rw [searchAround, last]
  | forbidden next closed rest ih =>
    cases path with
    | ends last => simp [last] at next
    | goes next' path =>
      obtain rfl := Option.some.inj (next'.symm.trans next)
      rw [List.length_cons] at enough
      obtain ⟨fuel, rfl⟩ : ∃ f, fuel = f + 1 := ⟨fuel - 1, by omega⟩
      rw [searchAround, next]
      simp only [closed, Bool.false_eq_true, ↓reduceIte]
      exact ih path (by omega)
  | done next permitted stop =>
    obtain ⟨fuel, rfl⟩ : ∃ f, fuel = f + 1 := ⟨fuel - 1, by omega⟩
    rw [searchAround, next]
    simp only [permitted, ↓reduceIte, if_pos (show _ ∨ _ from stop)]
  | goesOn next permitted further rest ih =>
    cases path with
    | ends last => simp [last] at next
    | goes next' path =>
      obtain rfl := Option.some.inj (next'.symm.trans next)
      rw [List.length_cons] at enough
      obtain ⟨fuel, rfl⟩ : ∃ f, fuel = f + 1 := ⟨fuel - 1, by omega⟩
      rw [searchAround, next]
      simp only [permitted, ↓reduceIte, if_neg (show ¬ (_ ∨ _) from further)]
      exact ih path (by omega)

end loop

section ports
variable {eport port : UInt16} {k : Nat}

theorem mem_atDistance (far : 0 < k) :
    port ∈ atDistance eport k ↔
      port.toNat = eport.toNat + k ∨ port ≠ 0 ∧ port.toNat + k = eport.toNat := by
  have bound := eport.toNat_lt
  have bound' := port.toNat_lt
  have zero : port = 0 ↔ port.toNat = 0 := by rw [← UInt16.toNat_inj, UInt16.toNat_zero]
  have up : eport.toNat + k ≤ 65535 →
      (port = UInt16.ofNat (eport.toNat + k) ↔ port.toNat = eport.toNat + k) := by
    intro room
    rw [← UInt16.toNat_inj, UInt16.toNat_ofNat', Nat.mod_eq_of_lt (by omega)]
  have down : port = UInt16.ofNat (eport.toNat - k) ↔ port.toNat = eport.toNat - k := by
    rw [← UInt16.toNat_inj, UInt16.toNat_ofNat', Nat.mod_eq_of_lt (by omega)]
  have above : port ∈ (if eport.toNat + k ≤ 65535 then [UInt16.ofNat (eport.toNat + k)] else []) ↔
      port.toNat = eport.toNat + k := by
    split
    · rename_i room
      rw [List.mem_singleton, up room]
    · simp only [List.not_mem_nil, false_iff]
      omega
  have below : port ∈ (if k < eport.toNat then [UInt16.ofNat (eport.toNat - k)] else []) ↔
      port ≠ 0 ∧ port.toNat + k = eport.toNat := by
    split
    · rw [List.mem_singleton, down, ne_eq, zero]
      omega
    · simp only [List.not_mem_nil, false_iff, ne_eq, zero]
      omega
  rw [atDistance, List.mem_append, above, below]

theorem mem_outward : port ∈ outward eport ↔ port ≠ 0 ∧ port ≠ eport := by
  have bound := eport.toNat_lt
  have bound' := port.toNat_lt
  have zero : port = 0 ↔ port.toNat = 0 := by rw [← UInt16.toNat_inj, UInt16.toNat_zero]
  have same : port = eport ↔ port.toNat = eport.toNat := UInt16.toNat_inj.symm
  simp only [outward, List.mem_flatMap, List.mem_range'_1]
  constructor
  · rintro ⟨k, range, here⟩
    rw [mem_atDistance (by omega)] at here
    rw [ne_eq, ne_eq, zero, same]
    rw [ne_eq, zero] at here
    omega
  · rintro ⟨positive, other⟩
    rw [ne_eq, zero] at positive
    rw [ne_eq, same] at other
    refine ⟨(port.toNat - eport.toNat) + (eport.toNat - port.toNat), by omega, ?_⟩
    rw [mem_atDistance (by omega), ne_eq, zero]
    omega

theorem atDistance_nodup (far : 0 < k) : (atDistance eport k).Nodup := by
  unfold atDistance
  split
  · rename_i room
    split
    · simp only [List.cons_append, List.nil_append, List.nodup_cons, List.mem_singleton,
        List.not_mem_nil, not_false_eq_true, List.nodup_nil, and_true]
      intro same
      have values := congrArg UInt16.toNat same
      rw [UInt16.toNat_ofNat', UInt16.toNat_ofNat', Nat.mod_eq_of_lt (by omega),
        Nat.mod_eq_of_lt (by omega)] at values
      omega
    · simp
  · split <;> simp

theorem outward_nodup (eport : UInt16) : (outward eport).Nodup := by
  rw [outward, List.nodup_flatMap]
  constructor
  · intro k range
    have far := (List.mem_range'_1.mp range).1
    exact atDistance_nodup far
  · apply List.Pairwise.imp_of_mem _ (List.nodup_range' (s := 1) (n := 65535))
    intro k k' range range' other port here here'
    rw [List.mem_range'_1] at range range'
    rw [mem_atDistance (by omega)] at here here'
    omega

end ports

/-- What the search from a requested port has to leave, whatever `upnp_redirect` answers. -/
structure Covers (allowed : Words 32 2048) (eport : UInt16) (o : Outcome) : Prop where
  once : (o.calls.map Prod.fst).Nodup
  permitted : ∀ call ∈ o.calls,
    call.1 ≠ 0 ∧ call.1 ≠ eport ∧ bit allowed call.1.toNat = true
  ended : o.r = 1 ∨ o.r = 0 ∨ o.r = -1
  exhausted : o.r = 1 → ∀ port, port ≠ 0 → port ≠ eport → bit allowed port.toNat = true →
    ∃ r, (port, r) ∈ o.calls ∧ r ≠ 0 ∧ r ≠ -1
  mapped : o.r = 0 → o.calls.getLast? = some (o.eport, 0)

theorem covers_outward {allowed : Words 32 2048} {eport : UInt16} {o : Outcome}
    (follows : Follows ((outward eport).filter fun port => bit allowed port.toNat) o) :
    Covers allowed eport o := by
  constructor
  · exact follows.order.sublist.nodup ((outward_nodup eport).filter _)
  · intro call made
    have tried := follows.order.subset (List.mem_map_of_mem made)
    obtain ⟨inside, permitted⟩ := List.mem_filter.mp tried
    obtain ⟨positive, other⟩ := mem_outward.mp inside
    exact ⟨positive, other, permitted⟩
  · rcases follows.last with one | ⟨zero | negative, _⟩
    · exact .inl one
    · exact .inr (.inl zero)
    · exact .inr (.inr negative)
  · intro one port positive other permitted
    obtain ⟨same, none⟩ := follows.all one
    have inside : port ∈ (outward eport).filter fun port => bit allowed port.toNat :=
      List.mem_filter.mpr ⟨mem_outward.mpr ⟨positive, other⟩, permitted⟩
    rw [← same] at inside
    obtain ⟨⟨port', r⟩, made, rfl⟩ := List.mem_map.mp inside
    have further := none (port', r) made
    exact ⟨r, made, fun zero => further (.inl zero), fun negative => further (.inr negative)⟩
  · intro zero
    rcases follows.last with one | ⟨_, last⟩
    · simp [one] at zero
    · rw [last, zero]

theorem search_covers (allowed : Words 32 2048) (redirect : UInt16 → Daemon → Int × Daemon)
    (eport : UInt16) (d : Daemon) :
    ∃ o, Searches allowed redirect { eport, eportBelow := eport, eportAbove := eport } d o ∧
      Covers allowed eport o := by
  obtain ⟨o, searches, follows⟩ := searches_path (path_outward eport) d
  exact ⟨o, searches, covers_outward follows⟩

section reply
variable {redirect : UInt16 → Daemon → Int × Daemon} {d d' : Daemon} {eport : UInt16}

theorem searches_mapped {allowed : Words 32 2048} {t : Tried} {o : Outcome}
    (searches : Searches allowed redirect t d o) (zero : o.r = 0) :
    ∃ before, redirect o.eport before = (0, o.daemon) := by
  induction searches with
  | exhausted last => simp at zero
  | forbidden next closed rest ih => exact ih zero
  | done next permitted stop => exact ⟨_, Prod.ext zero rfl⟩
  | goesOn next permitted further rest ih => exact ih zero

/-- A search that ends with 0 ends at the port of its last call. -/
theorem redirectAny_mapped (env : SoapEnv) (intIp : CString) (iport requested : UInt16)
    (found : redirectAny env intIp iport requested redirect d = ((0, eport), d')) :
    ∃ before, redirect eport before = (0, d') := by
  unfold redirectAny at found
  dsimp only at found
  split at found
  · obtain ⟨o, searches, _⟩ := search_covers
      (UpnpPermissions.getPermittedExtPorts env.upnppermlist ((Inet.inetAton intIp).getD 0) iport)
      redirect requested (redirect requested d).2
    rw [searchAround_searches (path_outward requested) (outward_length requested) searches] at found
    obtain ⟨result, rfl⟩ := Prod.mk.inj found
    obtain ⟨zero, rfl⟩ := Prod.mk.inj result
    exact searches_mapped searches zero
  · obtain ⟨result, rfl⟩ := Prod.mk.inj found
    obtain ⟨zero, rfl⟩ := Prod.mk.inj result
    exact ⟨d, Prod.ext zero rfl⟩

theorem addAnyPortMappingReply_reserved {r : Int} {port : UInt16}
    (reserved : addAnyPortMappingReply r port = .reservedPort eport) : r = 0 ∧ port = eport := by
  unfold addAnyPortMappingReply at reserved
  split at reserved
  · simp at reserved
  · split at reserved
    · rename_i zero
      exact ⟨zero, SoapReply.reservedPort.inj reserved⟩
    · split at reserved
      · simp at reserved
      · split at reserved <;> simp at reserved

theorem anyPortArguments_refused {h : Upnphttp} {reply : SoapReply}
    (refused : anyPortArguments h = .error reply) : reply = invalidArgs := by
  unfold anyPortArguments at refused
  split at refused
  · dsimp only at refused
    split at refused
    · exact (Except.error.inj refused).symm
    · simp at refused
  · exact (Except.error.inj refused).symm

theorem resolveClient_refused {env : SoapEnv} {given : CString} {reply : SoapReply}
    (refused : resolveClient env given = .error reply) : reply = invalidArgs := by
  unfold resolveClient at refused
  split at refused
  · simp at refused
  · split at refused
    · simp at refused
    · exact (Except.error.inj refused).symm

/-- A port that is reported was mapped by the last call, with the arguments of the request. -/
def ReportsMapped (env : SoapEnv) (h : Upnphttp) (eport : UInt16) (d' : Daemon) : Prop :=
  ∃ given args, anyPortArguments h = .ok (given, args) ∧
    ∃ intIp before, redirectRequest env h eport intIp args.iport args.protocol
      args.leaseduration before = (0, d')

theorem addAnyPortMapping_mapped {env : SoapEnv} {h : Upnphttp}
    (answer : addAnyPortMapping env h d = (.reservedPort eport, d')) :
    ReportsMapped env h eport d' := by
  unfold addAnyPortMapping at answer
  split at answer
  · rename_i reply refused
    obtain ⟨reserved, _⟩ := Prod.mk.inj answer
    rw [anyPortArguments_refused refused] at reserved
    simp [invalidArgs] at reserved
  · rename_i given args parsed
    refine ⟨given, args, parsed, ?_⟩
    dsimp only at answer
    split at answer
    · simp [onlyWildcard] at answer
    · split at answer
      · rename_i reply refused
        obtain ⟨reserved, _⟩ := Prod.mk.inj answer
        rw [resolveClient_refused refused] at reserved
        simp [invalidArgs] at reserved
      · rename_i intIp _ _
        split at answer
        · simp at answer
        · obtain ⟨reserved, rfl⟩ := Prod.mk.inj answer
          obtain ⟨zero, port⟩ := addAnyPortMappingReply_reserved reserved
          have found := redirectAny_mapped env intIp args.iport _ (Prod.ext (Prod.ext zero port) rfl)
          exact ⟨intIp, found⟩

end reply

end AnyPortSearch

import MiniUPnPd.SsdpSearch

/-!
The delays of the answers to a search, in a build that spreads them over the seconds of the MX
header. The header is taken as it is as long as it is not negative and not above 5; a delay is drawn
for a known type, and for a target as long as the identifiers of the device.
-/
namespace SearchDelays
open CText LanAddresses PcpServer Reads SsdpSearch

/-- What `random` gives at most. -/
def RAND_MAX : Nat := 2147483647

/-- The MX value limited to 1..5. -/
def limited (mx : Int) : Nat := (max 1 (min 5 mx)).toNat

/-- The search target in the datagram. -/
def target (bufr : Nat → Char) (headers : Headers) : Option CString :=
  headers.st.map fun start => (List.range headers.stLen).map fun k => bufr (start + k)

/-- The target begins with a known type, in a strict build of a version that is not above. -/
def Known (cfg : Config) (st : CString) (stVer : Int) : Prop :=
  ∃ known ∈ knownServiceTypes cfg, known.s <+: st ∧ (cfg.build.strict → stVer ≤ known.version)

/-- A search target for which a delay is drawn. -/
def Drawn (cfg : Config) (st : CString) (stVer : Int) : Prop :=
  Known cfg st stVer ∨ st.length = cfg.uuidvalueIgd.length

section draws
variable {cfg : Config} {sender : Sender} {host st : CString} {stVer mx : Int} {draw delay : Nat}

theorem randomDelay_zero (draw : Nat) : randomDelay draw 0 = none := rfl

/-- The divisor is the number of values that go to one millisecond, rounded up. -/
theorem randomDelay_lt (small : draw ≤ RAND_MAX) (one : 1 ≤ mx) :
    ∃ d, randomDelay draw mx = some d ∧ d < 1000 * mx.toNat := by
  refine ⟨_, if_neg (by omega), ?_⟩
  have positive : 0 < 1000 * mx.toNat := by omega
  rw [Nat.div_lt_iff_lt_mul (Nat.add_pos_left Nat.one_pos _), Nat.mul_add, Nat.mul_one]
  have whole := Nat.div_add_mod RAND_MAX (1000 * mx.toNat)
  have part := Nat.mod_lt RAND_MAX positive
  unfold RAND_MAX at whole part small
  omega

theorem searchDelay_delay (delays : cfg.build.delayMsearch = true) :
    searchDelay cfg draw mx delay = randomDelay (cfg.random draw) mx := if_pos delays

/-- The type that is found, if there is one. -/
theorem found_iff :
    ((knownServiceTypes cfg).zipIdx.find? fun (known, _) =>
        known.s.length ≤ st.length ∧ st.take known.s.length = known.s ∧
          (cfg.build.strict → stVer ≤ known.version)) ≠ none ↔ Known cfg st stVer := by
  rw [ne_eq, List.find?_eq_none]
  push Not
  constructor
  · intro found
    obtain ⟨⟨known, i⟩, member, matches'⟩ := found
    have three := of_decide_eq_true matches'
    refine ⟨known, List.fst_mem_of_mem_zipIdx member, ?_, three.2.2⟩
    rw [List.prefix_iff_eq_take]
    exact three.2.1.symm
  · intro found
    obtain ⟨known, member, start, version⟩ := found
    obtain ⟨i, inside, here⟩ := List.getElem_of_mem member
    refine ⟨(known, i), ?_, ?_⟩
    · rw [← here]
      exact List.mem_zipIdx_iff_getElem?.mpr (List.getElem?_eq_getElem inside)
    · exact decide_eq_true ⟨start.length_le, (List.prefix_iff_eq_take.mp start).symm, version⟩

variable {responses : List Response} {delay' : Nat}

/-- Without a division by zero the response to a type is delayed by less than the seconds. -/
theorem respondKnown_delays (delays : cfg.build.delayMsearch = true)
    (draws : ∀ k, cfg.random k ≤ RAND_MAX) (one : 1 ≤ mx) :
    ∃ responses delay', respondKnown cfg sender host st stVer mx delay = some (responses, delay') ∧
      ∀ r ∈ responses, r.delay < 1000 * mx.toNat := by
  unfold respondKnown
  dsimp only
  split
  · exact ⟨[], delay, rfl, fun r member => absurd member List.not_mem_nil⟩
  · rename_i known i _
    obtain ⟨d, drawn, small⟩ := randomDelay_lt (draws 0) one
    rw [searchDelay_delay delays, drawn]
    refine ⟨_, d, rfl, ?_⟩
    intro r member
    rw [List.mem_singleton.mp member]
    split
    · exact small
    · exact small

theorem respondUuid_delays (delays : cfg.build.delayMsearch = true)
    (draws : ∀ k, cfg.random k ≤ RAND_MAX) (one : 1 ≤ mx) :
    ∃ responses, respondUuid cfg sender host st mx draw delay = some responses ∧
      ∀ r ∈ responses, r.delay < 1000 * mx.toNat := by
  unfold respondUuid
  split
  · exact ⟨[], rfl, fun r member => absurd member List.not_mem_nil⟩
  · obtain ⟨d, drawn, small⟩ := randomDelay_lt (draws draw) one
    rw [searchDelay_delay delays, drawn]
    dsimp only [Option.bind_eq_bind, Option.bind_some]
    split
    · exact ⟨[], rfl, fun r member => absurd member List.not_mem_nil⟩
    · refine ⟨_, rfl, ?_⟩
      intro r member
      rw [List.mem_singleton.mp member]
      exact small

theorem respondKnown_zero (delays : cfg.build.delayMsearch = true) (known : Known cfg st stVer) :
    respondKnown cfg sender host st stVer 0 delay = none := by
  have found := found_iff.mpr known
  unfold respondKnown
  dsimp only
  split
  · rename_i none
    exact absurd none found
  · rw [searchDelay_delay delays, randomDelay_zero]
    rfl

theorem respondKnown_unknown (unknown : ¬ Known cfg st stVer) :
    respondKnown cfg sender host st stVer mx delay = some ([], delay) := by
  have none := not_not.mp (found_iff.not.mpr unknown)
  unfold respondKnown
  dsimp only
  rw [none]

theorem respondUuid_zero (delays : cfg.build.delayMsearch = true) :
    respondUuid cfg sender host st 0 draw delay =
      if st.length = cfg.uuidvalueIgd.length then none else some [] := by
  unfold respondUuid
  by_cases same : st.length = cfg.uuidvalueIgd.length
  · rw [if_neg (by omega), if_pos same, searchDelay_delay delays, randomDelay_zero]
    rfl
  · rw [if_pos (by omega), if_neg same]

theorem limited_used (high : mx ≤ 5) : limited mx = if 1 ≤ mx then mx.toNat else 1 := by
  unfold limited
  split <;> omega

/-- With a used value of 0 to 5 the responses are sent in time, unless 0 is divided by. -/
theorem respond_delays_iff {lan : LanAddr} (delays : cfg.build.delayMsearch = true)
    (draws : ∀ k, cfg.random k ≤ RAND_MAX) (announced : announcedHost cfg sender lan = some host)
    (low : 0 ≤ mx) (high : mx ≤ 5) :
    (∃ responses, respond cfg sender lan st stVer mx = some responses ∧
      (st ≠ "ssdp:all".toList → ∀ r ∈ responses, r.delay < 1000 * limited mx)) ↔
      ¬ (mx = 0 ∧ Drawn cfg st stVer) := by
  unfold respond
  rw [announced]
  dsimp only
  generalize "ssdp:all".toList = everything
  by_cases zero : mx = 0
  · subst zero
    by_cases known : Known cfg st stVer
    · have drawn : Drawn cfg st stVer := Or.inl known
      rw [respondKnown_zero delays known]
      refine iff_of_false ?_ (not_not_intro ⟨rfl, drawn⟩)
      intro sent
      obtain ⟨_, run, _⟩ := sent
      cases run
    · rw [respondKnown_unknown known]
      dsimp only [Option.bind_eq_bind, Option.bind_some]
      rw [respondUuid_zero delays]
      by_cases same : st.length = cfg.uuidvalueIgd.length
      · have drawn : Drawn cfg st stVer := Or.inr same
        rw [if_pos same]
        refine iff_of_false ?_ (not_not_intro ⟨rfl, drawn⟩)
        intro sent
        obtain ⟨_, run, _⟩ := sent
        cases run
      · have undrawn : ¬ Drawn cfg st stVer := by
          rintro (found | equal)
          · exact known found
          · exact same equal
        rw [if_neg same]
        refine iff_of_true ⟨_, rfl, ?_⟩ fun both => undrawn both.2
        intro single r member
        rw [if_neg single] at member
        cases member
  · have one : 1 ≤ mx := by omega
    have value := limited_used high
    rw [if_pos one] at value
    obtain ⟨known, delay, first, small⟩ :=
      @respondKnown_delays cfg sender host st stVer mx 50 delays draws one
    refine iff_of_true ?_ fun both => zero both.1
    rw [first, value]
    dsimp only [Option.bind_eq_bind, Option.bind_some]
    by_cases single : st = everything
    · obtain ⟨uuids, last, _⟩ := @respondUuid_delays cfg sender host st mx known.length
        (respondAll cfg sender host mx delay).2 delays draws one
      rw [if_pos single, last]
      exact ⟨_, rfl, fun other => absurd single other⟩
    · obtain ⟨uuids, last, small'⟩ := @respondUuid_delays cfg sender host st mx known.length
        delay delays draws one
      rw [if_neg single, last]
      refine ⟨_, rfl, ?_⟩
      intro _ r member
      rw [List.append_nil] at member
      rcases List.mem_append.mp member with here | there
      · exact small r here
      · exact small' r there

end draws

section datagrams
variable {n : Nat} {bufr : Nat → Char}

theorem readSlice_fenced {i len : Nat} (within : i + len ≤ n) :
    readSlice i len (fenced n bufr) = some ((List.range len).map fun k => bufr (i + k)) := by
  induction len generalizing i with
  | zero => rfl
  | succ len ih =>
    have here : fenced n bufr i = some (bufr i) := if_pos (by omega)
    have later := @ih (i + 1) (by omega)
    show (fenced n bufr i).bind _ = _
    rw [here, Option.bind_some]
    show ((readSlice (i + 1) len) (fenced n bufr)).bind _ = _
    rw [later, Option.bind_some, List.range_succ_eq_map, List.map_cons, List.map_map]
    show some (bufr i :: _) = some (bufr (i + 0) :: _)
    have shifted : ∀ k, i + 1 + k = i + (k + 1) := by omega
    simp only [shifted]
    rfl

/-- The headers before the first line is read. -/
def noHeaders : Headers := { st := none, stLen := 0, stVer := 0, mxValue := -1 }

theorem memcmp_methods (search : IsSearch n bufr) :
    memcmpAt 0 "NOTIFY".toList (fenced n bufr) = some false ∧
      memcmpAt 0 "M-SEARCH".toList (fenced n bufr) = some true := by
  obtain ⟨long, method⟩ := search
  have eight : "M-SEARCH".toList.length = 8 := by decide
  have six : "NOTIFY".toList.length = 6 := by decide
  have first : bufr 0 = 'M' := by
    have here := method 0 (by decide)
    exact (Option.some.inj (here.symm.trans (by decide))).trans rfl
  constructor
  · show (readSlice 0 "NOTIFY".toList.length (fenced n bufr)).bind _ = _
    rw [readSlice_fenced (by omega), Option.bind_some, six]
    show some (decide _) = _
    rw [decide_eq_false]
    intro same
    have head := congrArg List.head? same
    have start : bufr (0 + 0) = 'N' := Option.some.inj (head.trans (by decide))
    rw [Nat.zero_add, first] at start
    exact absurd start (by decide)
  · show (readSlice 0 "M-SEARCH".toList.length (fenced n bufr)).bind _ = _
    rw [readSlice_fenced (by omega), Option.bind_some, eight]
    show some (decide _) = _
    rw [decide_eq_true]
    apply List.ext_getElem
    · rw [List.length_map, List.length_range, eight]
    · intro k inside inside'
      rw [List.length_map, List.length_range] at inside
      have here := method k inside
      rw [List.getElem?_eq_getElem inside'] at here
      rw [List.getElem_map, List.getElem_range, Nat.zero_add]
      exact (Option.some.inj here).symm

theorem process_search {cfg : Config} {sender : Sender} {sourceIf : Int} {lan : LanAddr}
    {read : Option Headers} (search : IsSearch n bufr)
    (found : findLan cfg sender sourceIf = some lan)
    (scanned : scanHeaders cfg.build n 0 noHeaders (fenced n bufr) = some read) :
    processSSDPData cfg n sender sourceIf (fenced n bufr) =
      read.elim (some (some [])) fun headers =>
        respondHeaders cfg sender lan headers (fenced n bufr) := by
  obtain ⟨notify, method⟩ := memcmp_methods search
  unfold processSSDPData
  rw [found]
  show (memcmpAt 0 "NOTIFY".toList (fenced n bufr)).bind _ = _
  rw [notify, Option.bind_some]
  show (memcmpAt 0 "M-SEARCH".toList (fenced n bufr)).bind _ = _
  rw [method, Option.bind_some]
  show (scanHeaders cfg.build n 0 noHeaders (fenced n bufr)).bind _ = _
  rw [scanned, Option.bind_some]
  cases read with
  | none => rfl
  | some headers => rfl

theorem respondHeaders_search {cfg : Config} {sender : Sender} {lan : LanAddr} {headers : Headers}
    {mx : Int} {st : CString} (used : usedMx cfg.build headers.mxValue = some mx)
    (line : OneLine n bufr headers) (here : target bufr headers = some st) (some' : st ≠ []) :
    respondHeaders cfg sender lan headers (fenced n bufr) =
      some (respond cfg sender lan st headers.stVer mx) := by
  obtain ⟨start, first, slice⟩ := Option.map_eq_some_iff.mp here
  have positive : headers.stLen > 0 := by
    by_contra none
    have zero : headers.stLen = 0 := by omega
    rw [zero] at slice
    exact some' slice.symm
  unfold respondHeaders
  rw [used, first]
  dsimp only
  rw [if_pos positive]
  show (readSlice start headers.stLen (fenced n bufr)).bind _ = _
  rw [readSlice_fenced (line start first).1, slice, Option.bind_some]
  rfl

theorem respondHeaders_silent {cfg : Config} {sender : Sender} {lan : LanAddr} {headers : Headers}
    (silent : usedMx cfg.build headers.mxValue = none ∨ target bufr headers = none ∨
      target bufr headers = some []) :
    respondHeaders cfg sender lan headers (fenced n bufr) = some (some []) := by
  unfold respondHeaders
  cases used : usedMx cfg.build headers.mxValue with
  | none => rfl
  | some mx =>
    cases first : headers.st with
    | none => rfl
    | some start =>
      rw [used, target, first, Option.map_some, Option.some.injEq, List.map_eq_nil_iff,
        List.range_eq_nil] at silent
      have none : ¬ headers.stLen > 0 := by
        rcases silent with no | no | empty
        · cases no
        · cases no
        · omega
      dsimp only
      rw [if_neg none]
      rfl

/-- The value that is used is the header's own up to 5, except for a negative one. -/
theorem usedMx_cases {build : Build} {mx used : Int} (delays : build.delayMsearch = true)
    (value : usedMx build mx = some used) :
    0 ≤ used ∧ used ≤ 5 ∧ (used = 0 ↔ mx = 0) ∧ limited used = limited mx := by
  unfold usedMx at value
  rw [delays] at value
  unfold limited
  split at value
  · split at value
    · cases value
    · obtain rfl := Option.some.inj value
      split <;> omega
  · simp only [↓reduceIte, Option.some.injEq] at value
    subst value
    split
    · omega
    · split <;> omega

theorem usedMx_zero {build : Build} (delays : build.delayMsearch = true) :
    usedMx build 0 = some 0 := by
  unfold usedMx
  rw [delays]
  split
  · rfl
  · rfl

end datagrams

/-- All is answered, without a division by zero, and a response to a search for one type or
    identifier is delayed by less than the seconds of the MX header. -/
def InTime (bufr : Nat → Char) (read : Option Headers) (sent : Option (Option (List Response))) :
    Prop :=
  ∃ responses, sent = some (some responses) ∧ ∀ headers ∈ read,
    target bufr headers ≠ some "ssdp:all".toList →
      ∀ r ∈ responses, r.delay < 1000 * limited headers.mxValue

/-- The number of the MX header is 0, and the search comes from the LAN and asks for something that
    a delay is drawn for. -/
def ZeroDrawn (cfg : Config) (sender : Sender) (sourceIf : Int) (bufr : Nat → Char)
    (headers : Headers) : Prop :=
  headers.mxValue = 0 ∧
    (∃ lan, findLan cfg sender sourceIf = some lan ∧ announcedHost cfg sender lan ≠ none) ∧
    ∃ st, target bufr headers = some st ∧ st ≠ [] ∧ Drawn cfg st headers.stVer

theorem inTime_respond {bufr : Nat → Char} {headers : Headers} {st : CString}
    {responses : Option (List Response)} {mx : Int} (here : target bufr headers = some st)
    (same : limited mx = limited headers.mxValue) :
    InTime bufr (some headers) (some responses) ↔
      ∃ rs, responses = some rs ∧
        (st ≠ "ssdp:all".toList → ∀ r ∈ rs, r.delay < 1000 * limited mx) := by
  unfold InTime
  generalize "ssdp:all".toList = everything
  simp only [Option.some.injEq, Option.mem_def, forall_eq', here, ne_eq, same]

theorem delays_bounded_iff (cfg : Config) (delays : cfg.build.delayMsearch = true)
    (draws : ∀ k, cfg.random k ≤ RAND_MAX) (sender : Sender) (sourceIf : Int) (n : Nat)
    (bufr : Nat → Char) (search : IsSearch n bufr) :
    ∃ read, scanHeaders cfg.build n 0 noHeaders (fenced n bufr) = some read ∧
      (InTime bufr read (processSSDPData cfg n sender sourceIf (fenced n bufr)) ↔
        ∀ headers ∈ read, ¬ ZeroDrawn cfg sender sourceIf bufr headers) := by
  obtain ⟨read, lines, scanned, _⟩ := inside_run
    (inside_scanHeaders cfg.build 0 noHeaders (show OneLine n bufr noHeaders by
      intro start none
      cases none))
  refine ⟨read, scanned, ?_⟩
  have nothing : ∀ sent, sent = some (some []) → InTime bufr read sent := by
    intro sent silent
    exact ⟨[], silent, fun _ _ _ r member => absurd member List.not_mem_nil⟩
  cases found : findLan cfg sender sourceIf with
  | none =>
    refine iff_of_true (nothing _ ?_) ?_
    · unfold processSSDPData
      rw [found]
      rfl
    · intro headers _ zero
      obtain ⟨_, ⟨lan, here, _⟩, _⟩ := zero
      rw [found] at here
      cases here
  | some lan =>
    rw [process_search search found scanned]
    cases read with
    | none => exact iff_of_true (nothing _ rfl) fun headers none => absurd none (by simp)
    | some headers =>
      rw [Option.elim_some]
      by_cases silent : usedMx cfg.build headers.mxValue = none ∨ target bufr headers = none ∨
          target bufr headers = some []
      · refine iff_of_true (nothing _ (respondHeaders_silent silent)) ?_
        intro headers' same zero
        obtain rfl := Option.some.inj same
        obtain ⟨none, _, st, here, filled, _⟩ := zero
        rw [none, usedMx_zero delays, here] at silent
        rcases silent with no | no | empty
        · cases no
        · cases no
        · exact filled (Option.some.inj empty)
      · obtain ⟨used, more⟩ := not_or.mp silent
        obtain ⟨some', filled⟩ := not_or.mp more
        obtain ⟨mx, value⟩ := Option.ne_none_iff_exists'.mp used
        obtain ⟨st, here⟩ := Option.ne_none_iff_exists'.mp some'
        have filled' : st ≠ [] := fun empty => filled (empty ▸ here)
        obtain ⟨low, high, zero, same⟩ := usedMx_cases delays value
        rw [respondHeaders_search value (lines headers rfl) here filled', inTime_respond here same]
        cases announced : announcedHost cfg sender lan with
        | none =>
          have silent' : respond cfg sender lan st headers.stVer mx = some [] := by
            unfold respond
            rw [announced]
          rw [silent']
          refine iff_of_true ⟨[], rfl, fun _ r member => absurd member List.not_mem_nil⟩ ?_
          intro headers' same' drawn
          obtain ⟨_, ⟨lan', here', host⟩, _⟩ := drawn
          rw [found] at here'
          obtain rfl := Option.some.inj here'
          exact host announced
        | some host =>
          rw [respond_delays_iff delays draws announced low high, zero]
          have host' : announcedHost cfg sender lan ≠ none := by
            rw [announced]
            exact Option.some_ne_none host
          constructor
          · intro undrawn headers' same' drawn
            obtain rfl := Option.some.inj same'
            obtain ⟨none, _, st', again, _, type⟩ := drawn
            rw [here] at again
            obtain rfl := Option.some.inj again
            exact undrawn ⟨none, type⟩
          · intro undrawn drawn
            exact undrawn headers rfl
              ⟨drawn.1, ⟨lan, found, host'⟩, st, here, filled', drawn.2⟩

section examples

deriving instance DecidableEq for Headers

def rootSearch (mx : String) : CString :=
  "M-SEARCH * HTTP/1.1\r\nST: upnp:rootdevice\r\nMX: ".toList ++ mx.toList ++ "\r\n\r\n".toList

def delayingDaemon : Config :=
  let uuid := "uuid:00000000-0000-0000-0000-000000000000".toList
  { build := ⟨false, true, true, false, false, false, true⟩
    lanAddrs :=
      [{ ifname := "eth1".toList, index := 2, str := "192.168.1.1".toList
         addr := Inet.ofBytes 192 168 1 1, mask := netmask 24, addIndexes := 0 }]
    getSrcForRouteTo := fun _ => none
    getLinkLocalAddr := fun _ => 0
    inetNtop := fun _ => none
    ipv6AddrForHttp := "[::1]".toList
    uuidvalueIgd := uuid
    uuidvalueWan := uuid
    uuidvalueWcd := uuid
    httpPort := 5000
    httpsPort := none
    httpDate := none
    randomUrl := none
    serverString := "Linux UPnP/1.1 MiniUPnPd/2.3".toList
    bootid := 1
    configid := 1337
    random := fun _ => 2147483647 }

/-- The largest number that `random` gives, and the largest delay. -/
theorem delays_bounded_seven :
    let text := rootSearch "7"
    let bufr := fun i => text.getD i 'x'
    InTime bufr (some { st := some 25, stLen := 15, stVer := 0, mxValue := 7 })
      (processSSDPData delayingDaemon text.length (.inet (Inet.ofBytes 192 168 1 10) 50000) 2
        (fenced text.length bufr)) := by
  intro text bufr
  have search : IsSearch text.length bufr := by
    unfold IsSearch
    decide
  obtain ⟨read, scanned, exact'⟩ := delays_bounded_iff delayingDaemon (by decide)
    (fun _ => Nat.le_refl _) (.inet (Inet.ofBytes 192 168 1 10) 50000) 2 text.length bufr search
  have headers :
      scanHeaders delayingDaemon.build text.length 0 noHeaders (fenced text.length bufr) =
        some (some { st := some 25, stLen := 15, stVer := 0, mxValue := 7 }) := by decide +kernel
  rw [headers] at scanned
  obtain rfl := Option.some.inj scanned
  apply exact'.mpr
  intro headers' same zero
  obtain rfl := Option.some.inj same
  exact absurd zero.1 (by decide)

/-- A search with an MX header of 0 stops the daemon. -/
theorem zero_mx_divides :
    let text := rootSearch "0"
    processSSDPData delayingDaemon text.length (.inet (Inet.ofBytes 192 168 1 10) 50000) 2
      (fenced text.length fun i => text.getD i 'x') = some none := by
  decide +kernel

end examples

end SearchDelays

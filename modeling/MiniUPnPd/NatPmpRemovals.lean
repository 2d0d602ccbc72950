import MiniUPnPd.MappingRemovals
import MiniUPnPd.NatPmpMappings

/-!
The removal request of NAT-PMP. Its loop goes through the mappings by index and stays at the
index after a removal, also after one that has not removed anything. It ends all the same,
because a removal that is not refused takes away the description that asked for it.
-/
namespace NatPmpRemovals
open NetBytes CText FirstMatch Inet Iptc Iptcrdr IptcrdrSpec MappingRemovals Mappings NatPmp
  NatPmpMappings RuleCleaning RuleKeys UpnpRedirect UpnpRedirectSpec

/-- One round of the loop: it ends with a result code, or goes on from an index. -/
def removalRound (env : Env) (client : CString) (iport : UInt16) (proto : Int)
    (s : Int × Daemon) : UInt8 × Daemon ⊕ Int × Daemon :=
  match getRedirectRuleByIndex s.1 s.2.nf with
  | (none, nf) => .inl (0, s.2.withNf nf)
  | (some rule, nf) =>
      let d := s.2.withNf nf
      if asksToRemove client iport proto rule then
        let (r, d) := upnpDeleteRedir env rule.eport rule.proto d
        if r < 0 then .inl (2, d) else .inr (s.1, d)
      else .inr (s.1 + 1, d)

/-- The loop after some rounds, where `outcomes` tells for each round which of its libiptc calls
    fail. There is no last round: calls may fail for ever. -/
def afterRounds (env : Env) (client : CString) (iport : UInt16) (proto : Int)
    (outcomes : Nat → List Bool) (d : Daemon) : Nat → UInt8 × Daemon ⊕ Int × Daemon
  | 0 => .inr (0, d)
  | n + 1 =>
      match afterRounds env client iport proto outcomes d n with
      | .inl ended => .inl ended
      | .inr s => removalRound env client iport proto (s.1, facing s.2 (outcomes n))

section loop
variable {env : Env} {client : CString} {iport : UInt16} {proto : Int} {d : Daemon}

/-- The bounded loop makes the same rounds. -/
theorem removeMappings_succ (fuel : Nat) (index : Int) (d : Daemon) :
    removeMappings env client iport proto (fuel + 1) index d =
      match removalRound env client iport proto (index, d) with
      | .inl ended => ended
      | .inr s => removeMappings env client iport proto fuel s.1 s.2 := by
  rw [removeMappings, removalRound]
  rcases getRedirectRuleByIndex index d.nf with ⟨_ | rule, nf⟩
  · rfl
  · dsimp only
    split
    · split
      · rfl
      · rfl
    · rfl

/-- A mapping that asks for removal has a description, which the removal takes away. -/
theorem asked_described {rule : RedirectRule} {nf : Netfilter} {e : IptEntry}
    (byte : isByte (e.proto.toNat : Int)) (read : readRule nf e = rule)
    (asks : asksToRemove client iport proto rule = true) :
    ∃ p ∈ nf.rdrDescList, descMatches rule.eport rule.proto p = true := by
  subst read
  have same := descMatches_eq byte e.dpts.1
  cases found : nf.rdrDescList.find? (descMatches e.dpts.1 e.proto.toNat) with
  | some p => exact ⟨p, List.mem_of_find?_eq_some found, List.find?_some found⟩
  | none =>
    have default_ : (readRule nf e).desc = "miniupnpd".toList := by
      simp only [readRule, getRedirectDesc, same, found]
    have described : "NAT-PMP".toList <+: (readRule nf e).desc := (of_decide_eq_true asks).2.1
    rw [default_] at described
    exact absurd described (by decide)

/-- What the index and the tables leave to do. -/
def left (s : Int × Daemon) : Nat :=
  s.2.nf.rdrDescList.length + ((s.2.nf.chain .nat).length - s.1.toNat)

/-- The loop is at an index from 0 on, and the rules carry protocols of the IP header. -/
structure Underway (s : Int × Daemon) : Prop where
  index : 0 ≤ s.1
  bytes : ByteProtos (s.2.nf.chain .nat)

theorem round_cases {s s' : Int × Daemon} (underway : Underway s)
    (next : removalRound env client iport proto s = .inr s') :
    Underway s' ∧ left s' < left s := by
  obtain ⟨index, d⟩ := s
  obtain ⟨positive, bytes⟩ := underway
  dsimp only at positive bytes
  obtain ⟨done, results, calls⟩ := iptcCalls_cases 2 d.nf
  rw [removalRound, getRedirectRuleByIndex, calls] at next
  dsimp only at next
  cases here : (if done = true ∧ 0 ≤ index then
      ((d.nf.withResults results).chain .nat)[index.toNat]?.map (readRule (d.nf.withResults results))
      else none) with
  | none =>
    rw [here] at next
    simp at next
  | some rule =>
    rw [here] at next
    dsimp only at next
    split at here
    · obtain ⟨e, at', read⟩ := Option.map_eq_some_iff.mp here
      rw [chain_withResults] at at'
      obtain ⟨bound, value⟩ := List.getElem?_eq_some_iff.mp at'
      have inside : e ∈ d.nf.chain .nat := List.mem_of_getElem? at'
      split at next
      · rename_i asks
        obtain ⟨p, member, hit⟩ := asked_described (byte_of_entry bytes inside) read asks
        split at next
        · simp at next
        · rename_i accepted
          obtain rfl := Sum.inr.inj next
          obtain ⟨_, descs, nat⟩ := upnpDeleteRedir_exact env rule.eport rule.proto
            (d.withNf (d.nf.withResults results))
          have one : callsSucceed 1 (d.withNf (d.nf.withResults results)).nf.iptcResults = true := by
            by_contra failed
            rw [Bool.not_eq_true, ← upnpDeleteRedir_negative env rule.eport rule.proto] at failed
            exact accepted failed
          rw [if_pos one] at descs
          rw [descs_withResults] at member
          have fewer := List.length_eraseP_of_mem member hit
          have some_ : 0 < d.nf.rdrDescList.length := List.length_pos_of_mem member
          have shorter : (upnpDeleteRedir env rule.eport rule.proto
              (d.withNf (d.nf.withResults results))).2.nf.rdrDescList.length + 1 =
              d.nf.rdrDescList.length := by
            rw [← tables_descs, descs]
            simp only [withNf_nf, descs_withResults]
            omega
          have sub : ((upnpDeleteRedir env rule.eport rule.proto
              (d.withNf (d.nf.withResults results))).2.nf.chain .nat).Sublist (d.nf.chain .nat) := by
            rw [← tables_nat, nat]
            split
            · exact List.eraseP_sublist
            · exact List.Sublist.refl _
          have length := sub.length_le
          refine ⟨⟨positive, fun e member => bytes e (sub.subset member)⟩, ?_⟩
          simp only [left]
          omega
      · obtain rfl := Sum.inr.inj next
        refine ⟨⟨by dsimp only; omega, bytes⟩, ?_⟩
        simp only [left, withNf_nf, chain_withResults, descs_withResults]
        omega
    · simp at here

/-- Whichever calls fail, in however many rounds, the loop ends. -/
theorem rounds_end (bytes : ByteProtos (d.nf.chain .nat)) (outcomes : Nat → List Bool) :
    ∃ n ended, afterRounds env client iport proto outcomes d n = .inl ended := by
  have going : ∀ n, (∃ ended, afterRounds env client iport proto outcomes d n = .inl ended) ∨
      ∃ s, afterRounds env client iport proto outcomes d n = .inr s ∧ Underway s ∧
        left s + n ≤ left (0, d) := by
    intro n
    induction n with
    | zero => exact .inr ⟨(0, d), rfl, ⟨le_refl _, bytes⟩, le_refl _⟩
    | succ n ih =>
      rcases ih with ⟨ended, stopped⟩ | ⟨s, here, underway, bound⟩
      · exact .inl ⟨ended, by rw [afterRounds, stopped]⟩
      · have faced : Underway (s.1, facing s.2 (outcomes n)) := ⟨underway.index, underway.bytes⟩
        cases next : removalRound env client iport proto (s.1, facing s.2 (outcomes n)) with
        | inl ended => exact .inl ⟨ended, by rw [afterRounds, here]; exact next⟩
        | inr s' =>
          obtain ⟨underway', less⟩ := round_cases faced next
          refine .inr ⟨s', by rw [afterRounds, here]; exact next, underway', ?_⟩
          have same : left (s.1, facing s.2 (outcomes n)) = left s := rfl
          omega
  rcases going (left (0, d) + 1) with ⟨ended, stopped⟩ | ⟨s, _, _, bound⟩
  · exact ⟨_, ended, stopped⟩
  · omega

end loop

section quiet
variable {env : Env} {client : CString} {iport : UInt16} {proto : Int}

/-- In a mapping table a removal by the key of the mapping at an index takes out this mapping. -/
theorem filter_key_split {rules : List RedirectRule} (keyed : (rules.map ruleKey).Nodup) {i : Nat}
    {rule : RedirectRule} (here : rules[i]? = some rule) :
    rules.filter (fun other => ruleKey other ≠ ruleKey rule) = rules.take i ++ rules.drop (i + 1) := by
  obtain ⟨bound, value⟩ := List.getElem?_eq_some_iff.mp here
  have split : rules = rules.take i ++ rule :: rules.drop (i + 1) := by
    rw [← value, ← List.drop_eq_getElem_cons bound, List.take_append_drop]
  rw [split, List.map_append, List.map_cons, List.nodup_append] at keyed
  obtain ⟨_, later, apart⟩ := keyed
  rw [List.nodup_cons] at later
  have before : (rules.take i).filter (fun other => ruleKey other ≠ ruleKey rule) = rules.take i := by
    apply List.filter_eq_self.mpr
    intro other member
    have key := apart (ruleKey other) (List.mem_map_of_mem member) (ruleKey rule) List.mem_cons_self
    exact decide_eq_true key
  have after : (rules.drop (i + 1)).filter (fun other => ruleKey other ≠ ruleKey rule) =
      rules.drop (i + 1) := by
    apply List.filter_eq_self.mpr
    intro other member
    refine decide_eq_true ?_
    intro same
    exact later.1 (same ▸ List.mem_map_of_mem member)
  conv_lhs => rw [split]
  rw [List.filter_append, List.filter_cons_of_neg (by simp), before, after]

/-- From an index on, the loop takes out the mappings that ask for it. -/
theorem removeMappings_quiet {d : Daemon} (quiet : d.nf.Quiet) (table : MappingTable d.nf)
    (fuel i : Nat) (enough : (mappings d.nf).length < fuel + i) :
    mappings (removeMappings env client iport proto fuel i d).2.nf =
      (mappings d.nf).take i ++
        ((mappings d.nf).drop i).filter fun rule => !asksToRemove client iport proto rule := by
  induction fuel generalizing d i with
  | zero =>
    have past : (mappings d.nf).drop i = [] := List.drop_eq_nil_iff.mpr (by omega)
    rw [past, List.filter_nil, List.append_nil, List.take_of_length_le (by omega)]
    rfl
  | succ fuel ih =>
    rw [removeMappings_succ, removalRound, getRedirectRuleByIndex_quiet quiet]
    have same : (d.nf.chain .nat)[i]?.map (readRule d.nf) = (mappings d.nf)[i]? := by
      rw [mappings, List.getElem?_map]
    simp only [same]
    cases here : (mappings d.nf)[i]? with
    | none =>
      have length := List.getElem?_eq_none_iff.mp here
      have past : (mappings d.nf).drop i = [] := List.drop_eq_nil_iff.mpr length
      rw [past, List.filter_nil, List.append_nil, List.take_of_length_le length]
      rfl
    | some rule =>
      obtain ⟨bound, value⟩ := List.getElem?_eq_some_iff.mp here
      have split : (mappings d.nf).drop i = rule :: (mappings d.nf).drop (i + 1) := by
        rw [List.drop_eq_getElem_cons bound, value]
      simp only
      cases asks : asksToRemove client iport proto rule with
      | true =>
        obtain ⟨e, inside, read⟩ := List.mem_map.mp (List.mem_of_getElem? here)
        have byte : isByte rule.proto := by
          rw [← read]
          exact byte_of_entry table.bytes inside
        obtain ⟨still, removed⟩ := upnpDeleteRedir_quiet (d := d.withNf d.nf) env rule.eport quiet
          rule.proto
        have accepted : ¬ (upnpDeleteRedir env rule.eport rule.proto (d.withNf d.nf)).1 < 0 := by
          rw [upnpDeleteRedir_negative]
          have none_ : d.nf.iptcResults = [] := quiet
          simp [none_, callsSucceed]
        have taken := mappings_remove table byte removed
        have kept := filter_key_split table.keyed here
        rw [ruleKey] at kept
        rw [kept] at taken
        have reached : ((mappings d.nf).take i).length = i := List.length_take_of_le (by omega)
        have rest := ih still (mappingTable_remove table removed) i (by
          rw [taken, List.length_append, List.length_drop]
          omega)
        rw [taken, List.take_append_of_le_length (by omega), List.take_of_length_le (by omega),
          List.drop_append_of_le_length (by omega), List.drop_of_length_le (by omega),
          List.nil_append] at rest
        simp only [↓reduceIte, accepted]
        rw [rest, split, List.filter_cons_of_neg (by simp [asks])]
      | false =>
        have rest := @ih (d.withNf d.nf) quiet table (i + 1) (by rw [withNf_nf]; omega)
        simp only [Bool.false_eq_true, ↓reduceIte]
        push_cast at rest
        rw [rest, withNf_nf, split, List.filter_cons_of_pos (by simp [asks]), List.take_add_one, here]
        simp

end quiet

/-- A request to remove mappings. -/
structure RemovalRequest (req : List UInt8) : Prop where
  long : 12 ≤ req.length
  version : byteAt req 0 = 0
  opcode : byteAt req 1 = 1 ∨ byteAt req 1 = 2
  lifetime : readNU32 req 8 = 0

instance (req : List UInt8) : Decidable (RemovalRequest req) :=
  decidable_of_iff (12 ≤ req.length ∧ byteAt req 0 = 0 ∧ (byteAt req 1 = 1 ∨ byteAt req 1 = 2) ∧
    readNU32 req 8 = 0)
    ⟨fun h => ⟨h.1, h.2.1, h.2.2.1, h.2.2.2⟩, fun h => ⟨h.long, h.version, h.opcode, h.lifetime⟩⟩

section packet
variable {env : Env} {uplink : Uplink} {req : List UInt8} {client : InAddr} {d : Daemon}

theorem removal_answered (request : RemovalRequest req) :
    (processIncomingNATPMPPacket env uplink req client d).2 =
      (removeMappings env (inetNtoa client) (readNU16 req 4) (requestProto req) (removeFuel d) 0
        d).2 := by
  have long := request.long
  have version := request.version
  have short : ¬ (req.length < 2 ∨ (byteAt req 1 = 1 ∨ byteAt req 1 = 2) ∧ req.length < 12) := by
    omega
  have small : ¬ 128 ≤ byteAt req 1 := by
    rcases request.opcode with one | two
    · rw [one]
      decide
    · rw [two]
      decide
  have other : byteAt req 1 ≠ 0 := by
    rcases request.opcode with one | two
    · rw [one]
      decide
    · rw [two]
      decide
  have answered : ¬ 0 < byteAt req 0 := by
    rw [version]
    decide
  unfold processIncomingNATPMPPacket
  simp only [if_neg short, if_neg small, if_neg answered, if_neg other, if_pos request.opcode,
    mappingRequest, if_pos request.lifetime, requestProto]

end packet

/-- A request to remove what is mapped to TCP port 80 of the client. -/
def removeRequest : List UInt8 := [0, 2, 0, 0] ++ writeNU16 80 ++ writeNU16 0 ++ writeNU32 0

/-- Another client asks for the port that is mapped, and libiptc fails the lookup, so that the port
    gets a second redirection. -/
def twiceMapped : Daemon :=
  (processIncomingNATPMPPacket (Env.plain 1100) hourUplink hourRequest (ofBytes 192 168 0 3)
    (facing hourMapped [false])).2

end NatPmpRemovals

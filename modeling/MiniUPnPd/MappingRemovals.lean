import MiniUPnPd.Mappings
import MiniUPnPd.RuleCleaning

/-!
Removals from a table that is a map: at most one mapping for each external port and protocol.
A removal by key then takes out exactly the mapping with this key, and leaves the others with
their descriptions and expiry times.
-/
namespace MappingRemovals
open FirstMatch Iptc Iptcrdr IptcrdrSpec Mappings RuleCleaning RuleKeys UpnpRedirect
  UpnpRedirectSpec

def ruleKey (rule : RedirectRule) : UInt16 × Int := (rule.eport, rule.proto)

def entryKey (e : IptEntry) : UInt16 × Int := (e.dpts.1, (e.proto.toNat : Int))

@[simp] theorem ruleKey_readRule (nf : Netfilter) (e : IptEntry) :
    ruleKey (readRule nf e) = entryKey e := rfl

/-- The table of a daemon that keeps its mappings apart. -/
structure MappingTable (nf : Netfilter) : Prop where
  keyed : ((mappings nf).map ruleKey).Nodup
  bytes : ByteProtos (nf.chain .nat)

section
variable {nf nf' : Netfilter} {eport : UInt16} {proto : Int}

theorem map_ruleKey (nf : Netfilter) :
    (mappings nf).map ruleKey = (nf.chain .nat).map entryKey := by
  rw [mappings, List.map_map]
  rfl

theorem redirectMatches_entryKey :
    redirectMatches proto eport = fun e => decide (entryKey e = (eport, proto)) := by
  funext e
  rw [Bool.eq_iff_iff, redirectMatches_iff, decide_eq_true_eq, entryKey, Prod.mk.injEq]
  constructor
  · intro both
    exact ⟨both.2.symm, both.1.symm⟩
  · intro both
    exact ⟨both.2.symm, both.1.symm⟩

theorem getRedirectDesc_other {descs : List RdrDesc} (byte : isByte proto) {e : IptEntry}
    (byte' : isByte (e.proto.toNat : Int)) (other : entryKey e ≠ (eport, proto))
    (before : nf.rdrDescList = descs)
    (after : nf'.rdrDescList = descs.eraseP (descMatches eport proto)) :
    getRedirectDesc e.dpts.1 e.proto.toNat nf' = getRedirectDesc e.dpts.1 e.proto.toNat nf := by
  have same := descMatches_eq byte' e.dpts.1
  have kept : (descs.eraseP (descMatches eport proto)).find? (descMatches e.dpts.1 e.proto.toNat) =
      descs.find? (descMatches e.dpts.1 e.proto.toNat) := by
    apply find?_eraseP_other
    intro p hit
    rw [descMatches_iff byte'] at hit
    by_contra also
    rw [Bool.not_eq_false, descMatches_iff byte] at also
    apply other
    have protos := (ofInt_inj byte' byte).mp (hit.2.symm.trans also.2)
    exact Prod.ext (hit.1.symm.trans also.1) protos
  simp only [getRedirectDesc, before, after, same, kept]

theorem mappings_congr (nat : nf'.chain .nat = nf.chain .nat)
    (descs : nf'.rdrDescList = nf.rdrDescList) : mappings nf' = mappings nf := by
  rw [mappings, nat, mappings]
  apply List.map_congr_left
  intro e _
  simp only [readRule, getRedirectDesc, descs]

/-- The rule and the description under one key are taken out. -/
theorem mappings_erase (table : MappingTable nf) (byte : isByte proto)
    (nat : nf'.chain .nat = (nf.chain .nat).eraseP (redirectMatches proto eport))
    (descs : nf'.rdrDescList = nf.rdrDescList.eraseP (descMatches eport proto)) :
    mappings nf' = (mappings nf).filter (fun rule => ruleKey rule ≠ (eport, proto)) := by
  have keyed := table.keyed
  rw [map_ruleKey] at keyed
  rw [redirectMatches_entryKey, eraseP_key_filter keyed] at nat
  rw [mappings, nat, mappings, List.filter_map]
  apply List.map_congr_left
  intro e member
  obtain ⟨inside, other⟩ := List.mem_filter.mp member
  have desc := getRedirectDesc_other byte (byte_of_entry table.bytes inside)
    (by simpa using other) rfl descs
  simp only [readRule, desc]

theorem mappings_remove (table : MappingTable nf) (byte : isByte proto)
    (removed : tables nf' = remove eport proto (tables nf)) :
    mappings nf' = (mappings nf).filter (fun rule => ruleKey rule ≠ (eport, proto)) :=
  mappings_erase table byte (congrArg Tables.nat removed) (congrArg Tables.descs removed)

theorem mappingTable_sublist (table : MappingTable nf)
    (sub : (nf'.chain .nat).Sublist (nf.chain .nat)) : MappingTable nf' := by
  constructor
  · have keyed := table.keyed
    rw [map_ruleKey] at keyed ⊢
    exact (sub.map entryKey).nodup keyed
  · intro e member
    exact table.bytes e (sub.subset member)

/-- A removal by key of a mapping table leaves a mapping table. -/
theorem mappingTable_remove (table : MappingTable nf)
    (removed : tables nf' = remove eport proto (tables nf)) : MappingTable nf' := by
  apply mappingTable_sublist table
  have nat : nf'.chain .nat = (nf.chain .nat).eraseP (redirectMatches proto eport) :=
    congrArg Tables.nat removed
  rw [nat]
  exact List.eraseP_sublist

/-- Rules with the same key are the same rule. -/
theorem entry_unique (table : MappingTable nf) {e e' : IptEntry} (here : e ∈ nf.chain .nat)
    (there : e' ∈ nf.chain .nat) (same : entryKey e = entryKey e') : e = e' := by
  have keyed := table.keyed
  rw [map_ruleKey] at keyed
  exact List.inj_on_of_nodup_map keyed here there same

end

end MappingRemovals

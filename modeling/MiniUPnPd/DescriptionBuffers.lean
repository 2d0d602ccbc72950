import MiniUPnPd.Lib.CBuffer
import MiniUPnPd.Netfilter.Iptpinhole
import MiniUPnPd.UpnpSoap

/-!
The descriptions on their way out of the netfilter backend. They are stored at full length, up
to the 127 characters that the parser of the SOAP requests lets through, and copied with `strncpy`
into the buffers of the callers. The caller of `get_pinhole_info` that takes a description has
room for any address and does not ask for the counters, so a pinhole that is found is reported.
-/
namespace DescriptionBuffers
open CBuffer Iptc Iptcrdr Iptpinhole UpnpRedirect UpnpSoap

/-- A lookup of `get_redirect_rule`, `get_redirect_rule_by_index` or `get_pinhole_info`. -/
inductive Lookup where
  | rule (eport : UInt16) (proto : Int)
  | byIndex (index : Int)
  | pinhole (uid : UInt16)

/-- The description that is stored for what the lookup finds. -/
def storedDesc (nf : Netfilter) (fw : Firewall) : Lookup → Option CString
  | .rule eport proto => (getRedirectRule eport proto nf).1.map (·.desc)
  | .byIndex index => (getRedirectRuleByIndex index nf).1.map (·.desc)
  | .pinhole uid => (getPinhole uid fw).map (·.desc)

def copyDesc (desc : Option (List Char)) (str : CString) (desclen : Nat) :
    Except Fault (Option (List Char)) :=
  match desc with
  | none => .ok none
  | some cells => strncpy (some cells) str desclen

/-- The buffer of the description afterwards, if the lookup finds something. -/
def lookupDesc (nf : Netfilter) (fw : Firewall) (asked : Lookup) (desc : Option (List Char))
    (desclen : Nat) : Except Fault (Option (Option (List Char))) :=
  match storedDesc nf fw asked with
  | none => .ok none
  | some str => (copyDesc desc str desclen).map some

/-- The callers, under the names of the functions they are in. -/
inductive Caller where
  | getSpecificPortMappingEntry (eport : UInt16) (proto : Int)
  | deletePortMapping (eport : UInt16) (proto : Int)
  | getListOfPortMappings (eport : UInt16) (proto : Int)
  | upnpRedirect (eport : UInt16) (proto : Int)
  | removeUnusedRules (eport : UInt16) (proto : Int)
  | natpmpMap (eport : UInt16) (proto : Int)
  | createPCPMapNAT (eport : UInt16) (proto : Int)
  | getGenericPortMappingEntry (index : Int)
  | getPortmappingNumberOfEntries (index : Int)
  | getUpnpRulesStateList (index : Int)
  | leaseFileRewrite (index : Int)
  | writeRulesetDetails (index : Int)
  | tomatoSave (index : Int)
  | tomatoDelete (index : Int)
  | natpmpUnmap (index : Int)
  | deletePCPMap (index : Int)
  | deletePCPPinhole (uid : UInt16)
  | updatePinhole (uid : UInt16)
  | deletePinhole (uid : UInt16)
  | checkPinholeWorking (uid : UInt16)
  | getPinholePackets (uid : UInt16)

def Caller.asked : Caller → Lookup
  | .getSpecificPortMappingEntry eport proto
  | .deletePortMapping eport proto
  | .getListOfPortMappings eport proto
  | .upnpRedirect eport proto
  | .removeUnusedRules eport proto
  | .natpmpMap eport proto
  | .createPCPMapNAT eport proto => .rule eport proto
  | .getGenericPortMappingEntry index
  | .getPortmappingNumberOfEntries index
  | .getUpnpRulesStateList index
  | .leaseFileRewrite index
  | .writeRulesetDetails index
  | .tomatoSave index
  | .tomatoDelete index
  | .natpmpUnmap index
  | .deletePCPMap index => .byIndex index
  | .deletePCPPinhole uid
  | .updatePinhole uid
  | .deletePinhole uid
  | .checkPinholeWorking uid
  | .getPinholePackets uid => .pinhole uid

/-- The length of the buffer, for the callers that pass one. -/
def Caller.desclen : Caller → Option Nat
  | .getSpecificPortMappingEntry _ _ => some 64
  | .deletePortMapping _ _ => none
  | .getListOfPortMappings _ _ => some 64
  | .upnpRedirect _ _ => none
  | .removeUnusedRules _ _ => none
  | .natpmpMap _ _ => none
  | .createPCPMapNAT _ _ => none
  | .getGenericPortMappingEntry _ => some 64
  | .getPortmappingNumberOfEntries _ => some 64
  | .getUpnpRulesStateList _ => none
  | .leaseFileRewrite _ => some 64
  | .writeRulesetDetails _ => some 64
  | .tomatoSave _ => some 64
  | .tomatoDelete _ => some 64
  | .natpmpUnmap _ => some 64
  | .deletePCPMap _ => some 64
  | .deletePCPPinhole _ => some 64
  | .updatePinhole _ => none
  | .deletePinhole _ => none
  | .checkPinholeWorking _ => none
  | .getPinholePackets _ => none

/-- As the parser of the SOAP requests hands them on. -/
def Accepted (s : CString) : Prop := '\x00' ∉ s ∧ s.length ≤ 127

structure Tables where
  nf : Netfilter
  fw : Firewall
  descs : ∀ p ∈ nf.rdrDescList, Accepted p.str
  pinholes : ∀ p ∈ fw.pinholeList, Accepted p.desc

/-- Whatever the buffer holds before, a string ends in it when the call succeeds. -/
def Returned (t : Tables) (caller : Caller) : Prop :=
  ∀ cells, caller.desclen = some cells.length →
    Sound (lookupDesc t.nf t.fw caller.asked (some cells) cells.length) (fun desc => [desc])

section descriptions
variable (t : Tables)

theorem getRedirectDesc_plain {nf : Netfilter} (descs : ∀ p ∈ nf.rdrDescList, Accepted p.str)
    (eport : UInt16) (proto : Int) : '\x00' ∉ (getRedirectDesc eport proto nf).1 := by
  unfold getRedirectDesc
  split
  · rename_i p found
    exact (descs p (List.mem_of_find?_eq_some found)).1
  · decide

theorem storedDesc_plain {asked : Lookup} {str : CString}
    (stored : storedDesc t.nf t.fw asked = some str) : '\x00' ∉ str := by
  obtain ⟨done, results, calls⟩ := iptcCalls_cases 2 t.nf
  have described : ∀ e, '\x00' ∉ (readRule (t.nf.withResults results) e).desc :=
    fun e => getRedirectDesc_plain t.descs e.dpts.1 e.proto.toNat
  cases asked with
  | rule eport proto =>
    simp only [storedDesc, getRedirectRule, calls, Option.map_eq_some_iff] at stored
    obtain ⟨rule, found, rfl⟩ := stored
    split at found
    · obtain ⟨e, _, rfl⟩ := Option.map_eq_some_iff.mp found
      exact described e
    · cases found
  | byIndex index =>
    simp only [storedDesc, getRedirectRuleByIndex, calls, Option.map_eq_some_iff] at stored
    obtain ⟨rule, found, rfl⟩ := stored
    split at found
    · obtain ⟨e, _, rfl⟩ := Option.map_eq_some_iff.mp found
      exact described e
    · cases found
  | pinhole uid =>
    simp only [storedDesc, Option.map_eq_some_iff] at stored
    obtain ⟨p, found, rfl⟩ := stored
    exact (t.pinholes p (List.mem_of_find?_eq_some found)).1

/-- A caller gets a string exactly if the description that is stored is shorter than its
    buffer. -/
theorem returned_iff (caller : Caller) :
    Returned t caller ↔ ∀ n, caller.desclen = some n →
      ∀ str, storedDesc t.nf t.fw caller.asked = some str → str.length < n := by
  have copied : ∀ cells : List Char,
      Sound (lookupDesc t.nf t.fw caller.asked (some cells) cells.length) (fun desc => [desc]) ↔
        ∀ str, storedDesc t.nf t.fw caller.asked = some str → str.length < cells.length := by
    intro cells
    unfold lookupDesc
    cases stored : storedDesc t.nf t.fw caller.asked with
    | none => simpa using sound_none _
    | some str =>
      dsimp only [copyDesc]
      rw [sound_copy_iff (storedDesc_plain t stored)]
      simp
  unfold Returned
  simp only [copied]
  constructor
  · intro fits n given
    have buffer := fits (List.replicate n '\x00')
    rw [List.length_replicate] at buffer
    exact buffer given
  · intro fits cells given
    exact fits cells.length given

end descriptions

def openSoap : SoapEnv :=
  { Env.plain 0 with
    upnpStrict := false
    supportRemotehost := false
    igdV2 := false
    secureMode := false
    gethostbyname := fun _ => none
    random := 0 }

/-- A mapping with a description of 64 characters, which a SOAP request may have. -/
def longDescription : Upnphttp :=
  { clientaddr := 0xc0a80102, clientport := 40000
    args := [("NewInternalClient".toList, "192.168.1.2".toList),
             ("NewInternalPort".toList, "80".toList), ("NewExternalPort".toList, "80".toList),
             ("NewProtocol".toList, "TCP".toList),
             ("NewPortMappingDescription".toList, List.replicate 64 'd')] }

def longTables : Tables :=
  { nf := (addPortMapping openSoap longDescription (Daemon.start none)).2.nf
    fw := Firewall.empty
    descs := by
      have one : (addPortMapping openSoap longDescription (Daemon.start none)).2.nf.rdrDescList =
          [{ timestamp := 0, eport := 80, proto := 6, str := List.replicate 64 'd' }] := by
        decide +kernel
      intro p member
      rw [one, List.mem_singleton] at member
      rw [member]
      constructor
      · decide
      · decide
    pinholes := by
      intro p member
      cases member }

theorem long_description_unterminated : ¬ Returned longTables (.getGenericPortMappingEntry 0) := by
  intro returned
  have sound := returned (List.replicate 64 '\x00') rfl
  have stored : storedDesc longTables.nf longTables.fw (.byIndex 0) = some (List.replicate 64 'd') := by
    decide +kernel
  dsimp only [lookupDesc, Caller.asked] at sound
  rw [stored] at sound
  dsimp only [copyDesc] at sound
  rw [sound_copy_iff (by decide)] at sound
  simp at sound

end DescriptionBuffers

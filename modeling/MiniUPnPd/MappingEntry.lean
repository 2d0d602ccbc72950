import MiniUPnPd.DescriptionBuffers
import MiniUPnPd.LeaseExpiry
import MiniUPnPd.PortMappingList
import MiniUPnPd.SoapArguments
import MiniUPnPd.SoapValues

/-!
GetGenericPortMappingEntry. Its body has the fields of a mapping as they are stored between tags,
and is read with the parser of names and values.
-/
namespace MappingEntry
open CBuffer CText Inet Iptcrdr LeaseFile PortMappingList SoapArguments SoapBodies SoapValues
  UpnpRedirect UpnpReplyParse
open UpnpSoap (SoapEnv SoapReply Upnphttp addPortMapping invalidArgs portArguments)

/-- The rule with its remaining lease. -/
def upnpGetRedirectionInfosByIndex (env : Env) (index : Int) (d : Daemon) :
    Option (RedirectRule × Nat) × Daemon :=
  let (rule, nf) := getRedirectRuleByIndex index d.nf
  let now := env.clock.upnpTime % 2 ^ 32
  (rule.map fun rule => (rule, if rule.timestamp > now then rule.timestamp - now else 0),
    d.withNf nf)

def protocolText (proto : Int) : CString :=
  if proto = IPPROTO_TCP then "TCP".toList
  else if proto = IPPROTO_UDPLITE then "UDPLITE".toList else "UDP".toList

/-- Whether `strtol` negates, and what follows the sign. -/
def signed (s : CString) : Bool × CString :=
  match s.dropWhile isspace with
  | '-' :: t => (true, t)
  | '+' :: t => (false, t)
  | t => (false, t)

/-- Without a digit, or out of the range of `long`, there is no index. -/
def indexArgument (mIndex : CString) : Option Int :=
  let (negative, t) := signed mIndex
  if (t.head?.map Char.isDigit).getD false then
    if digitsValue t > (if negative then 2 ^ 63 else 2 ^ 63 - 1) then none else some (atoi mIndex)
  else none

/-- What `%s` prints of a buffer. -/
def printed (cells : List Char) : Except Fault CString :=
  if Terminated cells then .ok (untilNul cells) else .error .outside

def entryText (ns rhost : CString) (eport : UInt16) (protocol : CString) (iport : UInt16)
    (iaddr desc : CString) (leaseduration : Nat) : CString :=
  "<u:GetGenericPortMappingEntryResponse xmlns:u=\"".toList ++ ns ++
  "\"><NewRemoteHost>".toList ++ rhost ++
  "</NewRemoteHost><NewExternalPort>".toList ++ utoa eport.toNat ++
  "</NewExternalPort><NewProtocol>".toList ++ protocol ++
  "</NewProtocol><NewInternalPort>".toList ++ utoa iport.toNat ++
  "</NewInternalPort><NewInternalClient>".toList ++ iaddr ++
  "</NewInternalClient><NewEnabled>1</NewEnabled><NewPortMappingDescription>".toList ++ desc ++
  "</NewPortMappingDescription><NewLeaseDuration>".toList ++ utoa leaseduration ++
  "</NewLeaseDuration></u:GetGenericPortMappingEntryResponse>".toList

/-- A body that does not fit into its 2048 bytes is sent with what lies behind them. -/
def entryBody (text : CString) : Except Fault CString :=
  if text.length < 2048 then .ok text else .error .outside

/-- `cells` is what the buffer for the description holds before. -/
def entryReply (ns : Namespace) (cells : List Char) (rule : RedirectRule) (leaseduration : Nat) :
    Except Fault (Except SoapReply CString) := do
  let copied ← strncpy (some cells) rule.desc cells.length
  let desc ← printed (copied.getD [])
  let body ← entryBody (entryText ns.text rule.rhost rule.eport (protocolText rule.proto) rule.iport
    rule.iaddr desc leaseduration)
  pure (.ok body)

def getGenericPortMappingEntry (env : Env) (h : Upnphttp) (ns : Namespace) (cells : List Char)
    (d : Daemon) : Except Fault (Except SoapReply CString) × Daemon :=
  match UpnpSoap.getValueFromNameValueList h "NewPortMappingIndex" with
  | none => (.ok (.error invalidArgs), d)
  | some mIndex =>
    match indexArgument mIndex with
    | none => (.ok (.error invalidArgs), d)
    | some index =>
      let (infos, d) := upnpGetRedirectionInfosByIndex env index d
      match infos with
      | none => (.ok (.error (.soapError 713 "SpecifiedArrayIndexInvalid")), d)
      | some (rule, leaseduration) => (entryReply ns cells rule leaseduration, d)

/-- What is to be read back of a mapping, in the order of the body. -/
def entryValues (rule : RedirectRule) (leaseduration : Nat) : List NameValue :=
  [{ name := "NewRemoteHost".toList, value := rule.rhost },
   { name := "NewExternalPort".toList, value := utoa rule.eport.toNat },
   { name := "NewProtocol".toList, value := protocolText rule.proto },
   { name := "NewInternalPort".toList, value := utoa rule.iport.toNat },
   { name := "NewInternalClient".toList, value := rule.iaddr },
   { name := "NewPortMappingDescription".toList, value := rule.desc.take 63 },
   { name := "NewLeaseDuration".toList, value := utoa leaseduration }]

def entryNames : List CString :=
  ["NewRemoteHost".toList, "NewExternalPort".toList, "NewProtocol".toList,
   "NewInternalPort".toList, "NewInternalClient".toList, "NewPortMappingDescription".toList,
   "NewLeaseDuration".toList]

/-- Among the pairs that are read back from the body, the last first, those with the names of the
    fields are the fields. -/
def ReadsBack (env : Env) (h : Upnphttp) (ns : Namespace) (d : Daemon) (rule : RedirectRule)
    (leaseduration : Nat) : Prop :=
  ∀ cells, cells.length = 64 → ∃ body,
    (getGenericPortMappingEntry env h ns cells d).1 = .ok (.ok body) ∧
      (parseNameValue body).lHead.filter (fun nv => nv.name ∈ entryNames) =
        (entryValues rule leaseduration).reverse

def openTag (name : String) : CString := '<' :: (name.toList ++ ['>'])

def closeTag (name : String) : CString := '<' :: '/' :: (name.toList ++ ['>'])

/-- What the body has between its start tag and the description. -/
def beforeDesc (rhost : CString) (eport : UInt16) (protocol : CString) (iport : UInt16)
    (iaddr : CString) : CString :=
  openTag "NewRemoteHost" ++ rhost ++ closeTag "NewRemoteHost" ++
  openTag "NewExternalPort" ++ utoa eport.toNat ++ closeTag "NewExternalPort" ++
  openTag "NewProtocol" ++ protocol ++ closeTag "NewProtocol" ++
  openTag "NewInternalPort" ++ utoa iport.toNat ++ closeTag "NewInternalPort" ++
  openTag "NewInternalClient" ++ iaddr ++ closeTag "NewInternalClient" ++
  openTag "NewEnabled" ++ ['1'] ++ closeTag "NewEnabled" ++ openTag "NewPortMappingDescription"

def behindDesc (leaseduration : Nat) : CString :=
  closeTag "NewPortMappingDescription" ++
  openTag "NewLeaseDuration" ++ utoa leaseduration ++ closeTag "NewLeaseDuration" ++
  closeTag "u:GetGenericPortMappingEntryResponse"

/-- The texts of the format between the values, tag by tag. -/
theorem format_tags :
    "\"><NewRemoteHost>".toList = "\">".toList ++ openTag "NewRemoteHost" ∧
    "</NewRemoteHost><NewExternalPort>".toList =
      closeTag "NewRemoteHost" ++ openTag "NewExternalPort" ∧
    "</NewExternalPort><NewProtocol>".toList =
      closeTag "NewExternalPort" ++ openTag "NewProtocol" ∧
    "</NewProtocol><NewInternalPort>".toList =
      closeTag "NewProtocol" ++ openTag "NewInternalPort" ∧
    "</NewInternalPort><NewInternalClient>".toList =
      closeTag "NewInternalPort" ++ openTag "NewInternalClient" ∧
    "</NewInternalClient><NewEnabled>1</NewEnabled><NewPortMappingDescription>".toList =
      closeTag "NewInternalClient" ++ (openTag "NewEnabled" ++ (['1'] ++
        (closeTag "NewEnabled" ++ openTag "NewPortMappingDescription"))) ∧
    "</NewPortMappingDescription><NewLeaseDuration>".toList =
      closeTag "NewPortMappingDescription" ++ openTag "NewLeaseDuration" ∧
    "</NewLeaseDuration></u:GetGenericPortMappingEntryResponse>".toList =
      closeTag "NewLeaseDuration" ++ closeTag "u:GetGenericPortMappingEntryResponse" := by
  unfold openTag closeTag
  repeat rw [String.toList_ofList]
  decide

def entryLevel (ns : CString) (quoteless : '"' ∉ ns) : Level :=
  { level with
    markup :=
      { bare with
        ns := some ⟨['u'], List.cons_ne_nil _ _, List.all_eq_true.mp (by decide)⟩
        atts :=
          [{ gap := ⟨[' '], by simp [MinixmlText.White, Minixml.isWhiteSpace]⟩
             apart := List.cons_ne_nil _ _
             ns := some ⟨['x', 'm', 'l', 'n', 's'], List.cons_ne_nil _ _,
               List.all_eq_true.mp (by decide)⟩
             name := ⟨['u'], List.cons_ne_nil _ _, List.all_eq_true.mp (by decide)⟩
             before := noSpaces, after := noSpaces, quote := '"', quotes := .inr rfl
             value := ns, inside := quoteless }] } }

def fieldName (s : String) (good : s.toList ≠ [] ∧ s.toList.all nameChar = true) : Name :=
  ⟨s.toList, good.1, List.all_eq_true.mp good.2⟩

def field (s : String) (good : s.toList ≠ [] ∧ s.toList.all nameChar = true) (value : CString)
    (textual : '<' ∉ value ∧ '\x00' ∉ value) : Argument :=
  plainArgument (fieldName s good) value textual

def responseName : Name :=
  fieldName "GetGenericPortMappingEntryResponse" (by decide)

/-- The values that the daemon writes itself. -/
def Written (v : CString) : Prop := ∀ c ∈ v, c.isAlphanum = true ∨ c = '.'

section text
variable {v : CString}

theorem written_not_mem (written : Written v) {c : Char} (other : c.isAlphanum = false)
    (noDot : c ≠ '.') : c ∉ v := by
  intro member
  rcases written c member with inside | dot
  · rw [other] at inside
    cases inside
  · exact noDot dot

theorem utoa_written (n : Nat) : Written (utoa n) := by
  intro c member
  left
  simp [Char.isAlphanum, utoa_digits n c member]

theorem inetNtoa_written (a : InAddr) : Written (inetNtoa a) := by
  intro c member
  simp only [inetNtoa, List.mem_append, List.mem_cons] at member
  rcases member with digit | rfl | digit | rfl | digit | rfl | digit
  · exact utoa_written _ c digit
  · exact .inr rfl
  · exact utoa_written _ c digit
  · exact .inr rfl
  · exact utoa_written _ c digit
  · exact .inr rfl
  · exact utoa_written _ c digit

theorem protocolText_written (proto : Int) : Written (protocolText proto) := by
  unfold protocolText
  split_ifs
  · exact fun c member => .inl (List.all_eq_true.mp (by decide) c member)
  · exact fun c member => .inl (List.all_eq_true.mp (by decide) c member)
  · exact fun c member => .inl (List.all_eq_true.mp (by decide) c member)

theorem rhostOf_written (e : Iptc.IptEntry) : Written (rhostOf e) := by
  unfold rhostOf
  split
  · intro c member
    cases member
  · exact inetNtoa_written e.src

theorem written_textual (written : Written v) : '<' ∉ v ∧ '\x00' ∉ v :=
  ⟨written_not_mem written (by decide) (by decide), written_not_mem written (by decide) (by decide)⟩

end text

section parts
variable {ns : CString} (quoteless : '"' ∉ ns) (rhost : CString) (eport : UInt16)
  (protocol : CString) (iport : UInt16) (iaddr desc : CString) (leaseduration : Nat)

theorem entryLevel_opening :
    (entryLevel ns quoteless).opening responseName =
      "<u:GetGenericPortMappingEntryResponse xmlns:u=\"".toList ++ (ns ++ "\">".toList) := by
  simp [entryLevel, Level.opening, Markup.opening, qname, responseName, fieldName, Att.text, level,
    bare, noSpaces]

theorem entryText_parts :
    entryText ns rhost eport protocol iport iaddr desc leaseduration =
      (entryLevel ns quoteless).opening responseName ++
        (beforeDesc rhost eport protocol iport iaddr ++ desc ++ behindDesc leaseduration) := by
  obtain ⟨first, second, third, fourth, fifth, sixth, seventh, last⟩ := format_tags
  rw [entryLevel_opening]
  unfold entryText beforeDesc behindDesc
  rw [first, second, third, fourth, fifth, sixth, seventh, last]
  simp only [List.append_assoc]

theorem field_text (s : String) (good : s.toList ≠ [] ∧ s.toList.all nameChar = true)
    (value : CString) (textual : '<' ∉ value ∧ '\x00' ∉ value) (t : List Char) :
    (field s good value textual).text ++ t = openTag s ++ (value ++ (closeTag s ++ t)) := by
  simp [field, plainArgument, fieldName, Argument.text, Markup.opening, closingTag, qname, bare,
    noSpaces, openTag, closeTag]

theorem entryLevel_closing :
    (entryLevel ns quoteless).closing responseName =
      closeTag "u:GetGenericPortMappingEntryResponse" := by
  simp [entryLevel, Level.closing, closingTag, qname, responseName, fieldName, level, bare,
    noSpaces, closeTag]

end parts

/-- The addresses of a rule, as the lookups hand them back. -/
structure WrittenRule (rule : RedirectRule) : Prop where
  rhost : Written rule.rhost
  rhostShort : rule.rhost.length ≤ 15
  iaddr : Written rule.iaddr
  iaddrShort : rule.iaddr.length ≤ 15

theorem readRule_written (nf : Iptc.Netfilter) (e : Iptc.IptEntry) :
    WrittenRule (readRule nf e) where
  rhost := rhostOf_written e
  rhostShort := by
    change (rhostOf e).length ≤ 15
    unfold rhostOf
    split
    · exact Nat.zero_le 15
    · exact inetNtoa_length e.src
  iaddr := inetNtoa_written e.target.minIp
  iaddrShort := inetNtoa_length e.target.minIp

def entryFields {rule : RedirectRule} (written : WrittenRule rule) (leaseduration : Nat)
    (textual : '<' ∉ rule.desc ∧ '\x00' ∉ rule.desc) : List Argument :=
  [field "NewRemoteHost" (by decide) rule.rhost (written_textual written.rhost),
   field "NewExternalPort" (by decide) (utoa rule.eport.toNat)
     (written_textual (utoa_written _)),
   field "NewProtocol" (by decide) (protocolText rule.proto)
     (written_textual (protocolText_written _)),
   field "NewInternalPort" (by decide) (utoa rule.iport.toNat)
     (written_textual (utoa_written _)),
   field "NewInternalClient" (by decide) rule.iaddr (written_textual written.iaddr),
   field "NewEnabled" (by decide) ['1'] (by decide),
   field "NewPortMappingDescription" (by decide) rule.desc textual,
   field "NewLeaseDuration" (by decide) (utoa leaseduration)
     (written_textual (utoa_written _))]

theorem entryFields_text {rule : RedirectRule} (written : WrittenRule rule) (leaseduration : Nat)
    (textual : '<' ∉ rule.desc ∧ '\x00' ∉ rule.desc) {ns : CString} (quoteless : '"' ∉ ns) :
    beforeDesc rule.rhost rule.eport (protocolText rule.proto) rule.iport rule.iaddr ++ rule.desc ++
        behindDesc leaseduration =
      (entryFields written leaseduration textual).flatMap Argument.text ++
        ((entryLevel ns quoteless).closing responseName ++ []) := by
  unfold entryFields beforeDesc behindDesc
  simp only [List.flatMap_cons, List.flatMap_nil, List.append_assoc, field_text,
    entryLevel_closing, List.append_nil]

section body
variable {rule : RedirectRule} {leaseduration : Nat} {ns : CString}

def enabled : NameValue := { name := "NewEnabled".toList, value := ['1'] }

theorem port_length (port : UInt16) : (utoa port.toNat).length ≤ 5 :=
  utoa_length (by decide) (by have := port.toNat_lt; omega)

theorem protocolText_length (proto : Int) : (protocolText proto).length ≤ 7 := by
  unfold protocolText
  split_ifs
  · decide
  · decide
  · decide

theorem entry_plain {a : Argument} (name : a.name.text.length ≤ 63) (value : a.value.length ≤ 127) :
    a.entry = { name := a.name.text, value := a.value } := by
  rw [Argument.entry, Name.key, List.take_of_length_le name, List.take_of_length_le value]

def fieldNames : List CString :=
  ["NewRemoteHost".toList, "NewExternalPort".toList, "NewProtocol".toList,
   "NewInternalPort".toList, "NewInternalClient".toList, "NewEnabled".toList,
   "NewPortMappingDescription".toList, "NewLeaseDuration".toList]

theorem entryFields_names (written : WrittenRule rule)
    (textual : '<' ∉ rule.desc ∧ '\x00' ∉ rule.desc) :
    ∀ a ∈ entryFields written leaseduration textual,
      a.name.text.length ≤ 63 ∧ a.name.text ≠ newPortListing := by
  have names : (entryFields written leaseduration textual).map (fun a => a.name.text) =
      fieldNames := rfl
  have good : ∀ name ∈ fieldNames, name.length ≤ 63 ∧ name ≠ newPortListing := by decide
  intro a member
  apply good
  rw [← names]
  exact List.mem_map_of_mem member

theorem entryFields_short (written : WrittenRule rule) (lease : leaseduration < 2 ^ 32)
    (textual : '<' ∉ rule.desc ∧ '\x00' ∉ rule.desc) (short : rule.desc.length ≤ 63) :
    ∀ a ∈ entryFields written leaseduration textual, a.value.length ≤ 127 := by
  have time : (utoa leaseduration).length ≤ 10 := utoa_length (by decide) (by omega)
  have port (p : UInt16) : (utoa p.toNat).length ≤ 127 := (port_length p).trans (by decide)
  intro a member
  simp only [entryFields, List.mem_cons, List.not_mem_nil, or_false] at member
  rcases member with rfl | rfl | rfl | rfl | rfl | rfl | rfl | rfl
  · exact written.rhostShort.trans (by decide)
  · exact port rule.eport
  · exact (protocolText_length rule.proto).trans (by decide)
  · exact port rule.iport
  · exact written.iaddrShort.trans (by decide)
  · exact Nat.le_add_left 1 126
  · exact short.trans (by decide)
  · exact time.trans (by decide)

theorem entryFields_entries (written : WrittenRule rule) (lease : leaseduration < 2 ^ 32)
    (textual : '<' ∉ rule.desc ∧ '\x00' ∉ rule.desc) (short : rule.desc.length ≤ 63) :
    (entryFields written leaseduration textual).map Argument.entry =
      (entryValues rule leaseduration).take 5 ++ enabled ::
        (entryValues rule leaseduration).drop 5 := by
  have plain : (entryFields written leaseduration textual).map Argument.entry =
      (entryFields written leaseduration textual).map
        fun a => { name := a.name.text, value := a.value } := by
    apply List.map_congr_left
    intro a member
    have name := (entryFields_names written textual a member).1
    exact entry_plain name (entryFields_short written lease textual short a member)
  rw [plain, entryValues, List.take_of_length_le short]
  rfl

theorem filter_entries :
    ((entryValues rule leaseduration).take 5 ++ enabled ::
      (entryValues rule leaseduration).drop 5).filter (fun nv => nv.name ∈ entryNames) =
      entryValues rule leaseduration := by
  have names : (entryValues rule leaseduration).map NameValue.name = entryNames := rfl
  have own : ∀ nv ∈ entryValues rule leaseduration, decide (nv.name ∈ entryNames) = true := by
    intro nv member
    apply decide_eq_true
    rw [← names]
    exact List.mem_map_of_mem member
  have other : ¬ decide (enabled.name ∈ entryNames) = true := by decide
  rw [List.filter_append, List.filter_cons, if_neg other, ← List.filter_append,
    List.take_append_drop]
  exact List.filter_eq_self.mpr own

theorem text_read (quoteless : '"' ∉ ns) (written : WrittenRule rule)
    (lease : leaseduration < 2 ^ 32) (textual : '<' ∉ rule.desc ∧ '\x00' ∉ rule.desc)
    (short : rule.desc.length ≤ 63) :
    (parseNameValue (entryText ns rule.rhost rule.eport (protocolText rule.proto) rule.iport
        rule.iaddr rule.desc leaseduration)).lHead.filter (fun nv => nv.name ∈ entryNames) =
      (entryValues rule leaseduration).reverse := by
  have opened : ∃ r, (entryFields written leaseduration textual).flatMap Argument.text ++
      ((entryLevel ns quoteless).closing responseName ++ []) =
        bare.opening (fieldName "NewRemoteHost" (by decide)) ++ r := by
    rw [entryFields, List.flatMap_cons, List.append_assoc]
    exact argument_opens _ _
  have first : Leads _ (between [] [] false) _ _ :=
    leads_level (entryLevel ns quoteless) responseName opened
  have full : ∀ a ∈ entryFields written leaseduration textual, a.short = false := by
    intro a member
    simp only [entryFields, List.mem_cons, List.not_mem_nil, or_false] at member
    rcases member with rfl | rfl | rfl | rfl | rfl | rfl | rfl | rfl <;> rfl
  obtain ⟨c, fields⟩ : ∃ c, Leads _ (between [] responseName.key true) [] (between _ c false) :=
    leads_fields (entryLevel ns quoteless) responseName (List.cons_ne_nil _ _) full
      (fun a member => (entryFields_names written textual a member).2) []
  have run := leads_trans first fields
  rw [entryText_parts quoteless, entryFields_text written leaseduration textual quoteless,
    leads_parsed run (by simp)]
  change ((entryFields written leaseduration textual).map Argument.entry).reverse.filter _ = _
  rw [List.filter_reverse, entryFields_entries written lease textual short, filter_entries]

/-- Whatever the description is, a value comes from behind the start tag. -/
theorem text_sources (quoteless : '"' ∉ ns) (rhost : CString) (eport : UInt16)
    (protocol : CString) (iport : UInt16) (iaddr desc : CString) (leaseduration : Nat) :
    ∀ nv ∈ (parseNameValue (entryText ns rhost eport protocol iport iaddr desc
        leaseduration)).lHead,
      Source (beforeDesc rhost eport protocol iport iaddr ++ desc ++ behindDesc leaseduration)
        nv.value := by
  have opened : ∃ r, beforeDesc rhost eport protocol iport iaddr ++ desc ++
      behindDesc leaseduration =
        bare.opening (fieldName "NewRemoteHost" (by decide)) ++ r := by
    have tag : openTag "NewRemoteHost" =
        bare.opening (fieldName "NewRemoteHost" (by decide)) ++ ['>'] := by
      simp [openTag, Markup.opening, qname, bare, fieldName]
    unfold beforeDesc
    rw [tag]
    simp only [List.append_assoc]
    exact ⟨_, rfl⟩
  have first : Leads _ (between [] [] false) _ _ :=
    leads_level (entryLevel ns quoteless) responseName opened
  rw [← entryText_parts] at first
  obtain ⟨fuel, enough, same⟩ := first _ le_rfl
  have start : Sourced (beforeDesc rhost eport protocol iport iaddr ++ desc ++
      behindDesc leaseduration) (between [] responseName.key true) := by
    constructor
    · intro nv member
      cases member
    · intro cdata member
      cases member
  have sourced := parsed_sourced enough start
  rw [← same] at sourced
  exact sourced.entries

theorem beforeDesc_noBracket (written : WrittenRule rule) :
    '[' ∉ beforeDesc rule.rhost rule.eport (protocolText rule.proto) rule.iport rule.iaddr := by
  have rhost := written_not_mem (c := '[') written.rhost (by decide) (by decide)
  have iaddr := written_not_mem (c := '[') written.iaddr (by decide) (by decide)
  have port (p : UInt16) := written_not_mem (c := '[') (utoa_written p.toNat) (by decide) (by decide)
  have protocol := written_not_mem (c := '[') (protocolText_written rule.proto) (by decide)
    (by decide)
  unfold beforeDesc
  simp only [List.mem_append, not_or, rhost, iaddr, port, protocol, not_false_eq_true, and_true]
  unfold openTag closeTag
  repeat rw [String.toList_ofList]
  decide

theorem behindDesc_noBracket (leaseduration : Nat) : ']' ∉ behindDesc leaseduration := by
  have lease := written_not_mem (c := ']') (utoa_written leaseduration) (by decide) (by decide)
  unfold behindDesc
  simp only [List.mem_append, not_or, lease, not_false_eq_true, and_true]
  unfold openTag closeTag
  repeat rw [String.toList_ofList]
  decide

theorem format_lengths :
    "<u:GetGenericPortMappingEntryResponse xmlns:u=\"".toList.length ≤ 60 ∧
    "\"><NewRemoteHost>".toList.length ≤ 60 ∧
    "</NewRemoteHost><NewExternalPort>".toList.length ≤ 60 ∧
    "</NewExternalPort><NewProtocol>".toList.length ≤ 60 ∧
    "</NewProtocol><NewInternalPort>".toList.length ≤ 60 ∧
    "</NewInternalPort><NewInternalClient>".toList.length ≤ 60 ∧
    "</NewInternalClient><NewEnabled>1</NewEnabled><NewPortMappingDescription>".toList.length ≤
      80 ∧
    "</NewPortMappingDescription><NewLeaseDuration>".toList.length ≤ 60 ∧
    "</NewLeaseDuration></u:GetGenericPortMappingEntryResponse>".toList.length ≤ 60 := by
  repeat rw [String.toList_ofList]
  decide

theorem entryText_short (ns : Namespace) (written : WrittenRule rule)
    (lease : leaseduration < 2 ^ 32) (short : rule.desc.length ≤ 63) :
    (entryText ns.text rule.rhost rule.eport (protocolText rule.proto) rule.iport rule.iaddr
      rule.desc leaseduration).length < 2048 := by
  have time : (utoa leaseduration).length ≤ 10 := utoa_length (by decide) (by omega)
  have eport := port_length rule.eport
  have iport := port_length rule.iport
  have protocol := protocolText_length rule.proto
  have rhost := written.rhostShort
  have iaddr := written.iaddrShort
  have space := ns.short
  have format := format_lengths
  unfold entryText
  repeat rw [List.length_append]
  omega

end body

section handler
variable {env : Env} {h : Upnphttp} {ns : Namespace} {d : Daemon} {rule : RedirectRule}
  {leaseduration : Nat} {mIndex : CString} {index : Int}

theorem printed_padded {n : Nat} {src : CString} (plain : '\x00' ∉ src) :
    printed (padded n src) = if src.length < n then .ok src else .error .outside := by
  unfold printed
  by_cases short : src.length < n
  · have text : untilNul (padded n src) = src := by
      have nonNul : ∀ c ∈ src, decide (c ≠ Char.ofNat 0) = true := fun c member =>
        decide_eq_true fun nul => plain (nul ▸ member)
      rw [padded, List.take_of_length_le (by omega), untilNul,
        List.takeWhile_append_of_pos nonNul]
      simp
    rw [if_pos ((terminated_padded_iff plain).mpr short), if_pos short, text]
  · rw [if_neg (fun ends => short ((terminated_padded_iff plain).mp ends)), if_neg short]

theorem entryReply_text (ns : Namespace) (plain : '\x00' ∉ rule.desc) (cells : List Char)
    {text : CString}
    (whole : entryText ns.text rule.rhost rule.eport (protocolText rule.proto) rule.iport rule.iaddr
      rule.desc leaseduration = text) :
    entryReply ns cells rule leaseduration =
      if rule.desc.length < cells.length then (entryBody text).map .ok else .error .outside := by
  simp only [entryReply, strncpy_whole, bind, Except.bind, Option.getD_some,
    printed_padded plain]
  by_cases short : rule.desc.length < cells.length
  · simp only [short, if_true, whole]
    cases entryBody text with
    | error fault => rfl
    | ok body => rfl
  · simp only [short, if_false]

theorem handler_reply (ns : Namespace) (cells : List Char)
    (asked : UpnpSoap.getValueFromNameValueList h "NewPortMappingIndex" = some mIndex)
    (read : indexArgument mIndex = some index)
    (found : (upnpGetRedirectionInfosByIndex env index d).1 = some (rule, leaseduration)) :
    (getGenericPortMappingEntry env h ns cells d).1 = entryReply ns cells rule leaseduration := by
  rcases infos : upnpGetRedirectionInfosByIndex env index d with ⟨given, d'⟩
  rw [infos] at found
  cases found
  simp only [getGenericPortMappingEntry, asked, read, infos]

/-- A rule that a lookup finds has the description and the expiry under its key, and no more of
    its lease is left than that. -/
theorem infos_found
    (found : (upnpGetRedirectionInfosByIndex env index d).1 = some (rule, leaseduration)) :
    WrittenRule rule ∧
      (rule.desc, rule.timestamp) = getRedirectDesc rule.eport rule.proto d.nf ∧
      leaseduration ≤ rule.timestamp := by
  obtain ⟨done, results, calls⟩ := Iptc.iptcCalls_cases 2 d.nf
  simp only [upnpGetRedirectionInfosByIndex, getRedirectRuleByIndex, calls,
    Option.map_eq_some_iff] at found
  obtain ⟨rule', seen, same⟩ := found
  split at seen
  · obtain ⟨e, _, rfl⟩ := Option.map_eq_some_iff.mp seen
    obtain ⟨rfl, rfl⟩ := Prod.mk.inj same
    refine ⟨readRule_written _ e, rfl, ?_⟩
    split
    · exact Nat.sub_le _ _
    · exact Nat.zero_le _
  · cases seen

theorem readsBack_iff
    (asked : UpnpSoap.getValueFromNameValueList h "NewPortMappingIndex" = some mIndex)
    (read : indexArgument mIndex = some index)
    (found : (upnpGetRedirectionInfosByIndex env index d).1 = some (rule, leaseduration))
    (written : WrittenRule rule) (plain : '\x00' ∉ rule.desc) (lease : leaseduration < 2 ^ 32)
    (quoteless : '"' ∉ ns.text) :
    ReadsBack env h ns d rule leaseduration ↔ rule.desc.length ≤ 63 ∧ '<' ∉ rule.desc := by
  have sent (cells : List Char) := handler_reply ns cells asked read found
  unfold ReadsBack
  simp only [sent, entryReply_text ns plain _ rfl]
  constructor
  · intro reads
    obtain ⟨body, replied, values⟩ := reads (List.replicate 64 '\x00') (by simp)
    rw [List.length_replicate] at replied
    have short : rule.desc.length < 64 := by
      by_contra long
      rw [if_neg long] at replied
      cases replied
    refine ⟨by omega, ?_⟩
    rw [if_pos short, entryBody, if_pos (entryText_short ns written lease (by omega))] at replied
    have text := Except.ok.inj (Except.ok.inj replied)
    rw [← text] at values
    have last : { name := "NewPortMappingDescription".toList, value := rule.desc.take 63 } ∈
        (entryValues rule leaseduration).reverse :=
      List.mem_reverse.mpr (.tail _ (.tail _ (.tail _ (.tail _ (.tail _ (.head _))))))
    rw [← values] at last
    have source := text_sources quoteless _ _ _ _ _ _ _ _ (List.mem_of_mem_filter last)
    rw [List.take_of_length_le (by omega)] at source
    exact source_noTag (beforeDesc_noBracket written) (behindDesc_noBracket leaseduration) source
  · rintro ⟨short, noTag⟩ cells sixtyFour
    refine ⟨_, ?_, text_read quoteless written lease ⟨noTag, plain⟩ short⟩
    rw [if_pos (by omega), entryBody, if_pos (entryText_short ns written lease short)]
    rfl

end handler

/-- The description that an AddPortMapping request asks for. -/
def requestDesc (h : Upnphttp) : CString :=
  (UpnpSoap.getValueFromNameValueList h "NewPortMappingDescription").getD []

/-- The arguments of the request are what the parser reads from its body. -/
def ParsedFrom (h : Upnphttp) (buffer : List Char) : Prop :=
  h.args = (parseNameValue buffer).lHead.map fun nv => (nv.name, nv.value)

theorem requestDesc_plain {h : Upnphttp} {buffer : List Char} (parsed : ParsedFrom h buffer) :
    '\x00' ∉ requestDesc h := by
  unfold requestDesc
  rw [getValue_handler h _ parsed, getValueFromNameValueList]
  cases found : (parseNameValue buffer).lHead.find? fun nv =>
      nv.name = "NewPortMappingDescription".toList with
  | none => exact List.not_mem_nil
  | some nv => exact parsed_noNul buffer nv (List.mem_of_find?_eq_some found)

/-- The body for a mapping that an accepted AddPortMapping request has stored is read back exactly
    if its description fits into the buffer and has no opening bracket. -/
theorem entry_read_back_iff {soap : SoapEnv} {request : Upnphttp} {buffer : List Char}
    {stored : UpnpSoap.PortArguments} {before : Daemon} {env : Env} {h : Upnphttp} {ns : Namespace}
    {mIndex : CString} {index : Int} {rule : RedirectRule} {leaseduration : Nat}
    (parsed : ParsedFrom request buffer)
    (accepted : (addPortMapping soap request before).1 = .done)
    (arguments : portArguments soap request = .ok stored)
    (asked : UpnpSoap.getValueFromNameValueList h "NewPortMappingIndex" = some mIndex)
    (read : indexArgument mIndex = some index)
    (found : (upnpGetRedirectionInfosByIndex env index (addPortMapping soap request before).2).1 =
      some (rule, leaseduration))
    (own : rule.eport = stored.eport ∧ rule.proto = protoAtoi stored.protocol)
    (quoteless : '"' ∉ ns.text) :
    ReadsBack env h ns (addPortMapping soap request before).2 rule leaseduration ↔
      (requestDesc request).length ≤ 63 ∧ '<' ∉ requestDesc request := by
  obtain ⟨written, key, remaining⟩ := infos_found found
  rw [own.1, own.2, LeaseExpiry.addPortMapping_recorded arguments accepted] at key
  obtain ⟨desc, time⟩ := Prod.mk.inj key
  have plain := requestDesc_plain parsed
  have bound : expiryTime soap.toEnv stored.leaseduration < 2 ^ 32 := by
    unfold expiryTime
    split
    · exact Nat.mod_lt _ (by decide)
    · decide
  rw [requestDesc, ← desc] at plain ⊢
  exact readsBack_iff asked read found written plain (by omega) quoteless

/-- The body of an AddPortMapping request, with the text between the tags of the description. -/
def requestBody (desc : String) : List Char :=
  "<u:AddPortMapping><NewExternalPort>80</NewExternalPort><NewProtocol>TCP</NewProtocol>".toList ++
    "<NewInternalPort>80</NewInternalPort><NewInternalClient>1.2.3.4</NewInternalClient>".toList ++
    "<NewPortMappingDescription>".toList ++ desc.toList ++
    "</NewPortMappingDescription></u:AddPortMapping>".toList

def addRequest (desc : String) : Upnphttp :=
  { clientaddr := 0x01020304, clientport := 40000
    args := [("NewPortMappingDescription".toList, desc.toList),
             ("NewInternalClient".toList, "1.2.3.4".toList), ("NewInternalPort".toList, "80".toList),
             ("NewProtocol".toList, "TCP".toList), ("NewExternalPort".toList, "80".toList)] }

def indexRequest : Upnphttp :=
  { clientaddr := 0x01020304, clientport := 40000
    args := [("NewPortMappingIndex".toList, "0".toList)] }

def addedRule (desc : String) : RedirectRule :=
  { eport := 80, proto := 6, iaddr := "1.2.3.4".toList, iport := 80, desc := desc.toList
    rhost := [], timestamp := 0, packets := 0, bytes := 0 }

def plainSpace : Namespace := ⟨['n'], by decide⟩

def addedDaemon (desc : String) : Daemon :=
  (addPortMapping DescriptionBuffers.openSoap (addRequest desc) (Daemon.start none)).2

theorem index_asked :
    UpnpSoap.getValueFromNameValueList indexRequest "NewPortMappingIndex" = some "0".toList := by
  decide

theorem index_read : indexArgument "0".toList = some 0 := by decide

theorem entry_read_back_web :
    ReadsBack (Env.plain 0) indexRequest plainSpace (addedDaemon "web") (addedRule "web") 0 ↔
      (requestDesc (addRequest "web")).length ≤ 63 ∧ '<' ∉ requestDesc (addRequest "web") := by
  have parsed : ParsedFrom (addRequest "web") (requestBody "web") := by
    unfold ParsedFrom requestBody
    repeat rw [String.toList_ofList]
    decide +kernel
  have accepted : (addPortMapping DescriptionBuffers.openSoap (addRequest "web")
      (Daemon.start none)).1 = .done := by decide +kernel
  have arguments : portArguments DescriptionBuffers.openSoap (addRequest "web") =
      .ok { eport := 80, iport := 80, protocol := "TCP".toList, leaseduration := 0 } := by
    rfl
  have found : (upnpGetRedirectionInfosByIndex (Env.plain 0) 0 (addedDaemon "web")).1 =
      some (addedRule "web", 0) := by decide +kernel
  have quoteless : '"' ∉ plainSpace.text := by decide
  exact entry_read_back_iff parsed accepted arguments index_asked index_read found
    (by decide +kernel) quoteless

/-- A description that the request has in a CDATA section. -/
theorem bracket_lost :
    ParsedFrom (addRequest "a<b") (requestBody "<![CDATA[a<b]]>") ∧
      (addPortMapping DescriptionBuffers.openSoap (addRequest "a<b")
        (Daemon.start none)).1 = .done ∧
      (upnpGetRedirectionInfosByIndex (Env.plain 0) 0 (addedDaemon "a<b")).1 =
        some (addedRule "a<b", 0) ∧
      ¬ ReadsBack (Env.plain 0) indexRequest plainSpace (addedDaemon "a<b") (addedRule "a<b") 0 := by
  have parsed : ParsedFrom (addRequest "a<b") (requestBody "<![CDATA[a<b]]>") := by
    unfold ParsedFrom requestBody
    repeat rw [String.toList_ofList]
    decide +kernel
  have found : (upnpGetRedirectionInfosByIndex (Env.plain 0) 0 (addedDaemon "a<b")).1 =
      some (addedRule "a<b", 0) := by decide +kernel
  refine ⟨parsed, by decide +kernel, found, ?_⟩
  rw [readsBack_iff index_asked index_read found (infos_found found).1 (by decide +kernel)
    (by decide) (by decide)]
  decide

end MappingEntry

import MiniUPnPd.Lib.OutputBuffer
import MiniUPnPd.SdnPortmappings
import MiniUPnPd.UpnpSoap

/-!
GetListOfPortMappings. The body is built in a buffer of 4096 bytes that grows by 4096 before
an entry, at most once, when fewer than 1024 are left. Allocations succeed. Once a text does not
fit, what the rest of the run writes does not matter.
-/
namespace PortMappingList
open CText Iptcrdr OutputBuffer SdnPortmappings UpnpRedirect UpnpSoap

/-- The name of the service in the SOAPAction header, cut to 255 characters. -/
structure Namespace where
  text : CString
  short : text.length ≤ 255

def respStart (ns : CString) : CString :=
  "<u:GetListOfPortMappingsResponse xmlns:u=\"".toList ++ ns ++
    "\"><NewPortListing><![CDATA[".toList

def respEnd : CString := "]]></NewPortListing></u:GetListOfPortMappingsResponse>".toList

def listStart : CString :=
  ("<p:PortMappingList xmlns:p=\"urn:schemas-upnp-org:gw:WANIPConnection\"" ++
   " xmlns:xsi=\"http://www.w3.org/2001/XMLSchema-instance\"" ++
   " xsi:schemaLocation=\"urn:schemas-upnp-org:gw:WANIPConnection" ++
   " http://www.upnp.org/schemas/gw/WANIPConnection-v2.xsd\">").toList

def listEnd : CString := "</p:PortMappingList>".toList

def entryText (rhost : CString) (eport : UInt16) (protocol : CString) (iport : UInt16)
    (iaddr desc : CString) (leaseduration : Nat) : CString :=
  "<p:PortMappingEntry><p:NewRemoteHost>".toList ++ rhost ++
  "</p:NewRemoteHost><p:NewExternalPort>".toList ++ utoa eport.toNat ++
  "</p:NewExternalPort><p:NewProtocol>".toList ++ protocol ++
  "</p:NewProtocol><p:NewInternalPort>".toList ++ utoa iport.toNat ++
  "</p:NewInternalPort><p:NewInternalClient>".toList ++ iaddr ++
  "</p:NewInternalClient><p:NewEnabled>1</p:NewEnabled><p:NewDescription>".toList ++ desc ++
  "</p:NewDescription><p:NewLeaseTime>".toList ++ utoa leaseduration ++
  "</p:NewLeaseTime></p:PortMappingEntry>".toList

/-- The margin of an entry; the sum is of the unsigned type. -/
def reserve (b : OutBuffer) : OutBuffer :=
  if (b.len % 2 ^ 32 + 1024) % 2 ^ 32 > b.alloc then { b with alloc := b.alloc + 4096 } else b

/-- The margin of the end, as a `size_t`; `list_end` has a size of 21. -/
def reserveEnd (b : OutBuffer) : OutBuffer :=
  if (b.len + 21 + 1024) % 2 ^ 64 > b.alloc then { b with alloc := b.alloc + (21 + 1024) } else b

section functions
variable {ε σ : Type*} (lookup : ε → σ → Option CString × σ)

/-- The entries of the list, each looked up for the text that it is printed as. -/
def listLoop : List ε → Int → OutBuffer → σ → OutBuffer × σ
  | [], _, b, s => (b, s)
  | e :: entries, number, b, s =>
      if number > 0 then
        let b := reserve b
        match lookup e s with
        | (none, s) => listLoop entries number b s
        | (some text, s) => listLoop entries (number - 1) (b.snprintf text) s
      else (b, s)

/-- `cells` is the memory before. -/
def startBody (cells : Int → Char) (ns : Namespace) : OutBuffer :=
  (OutBuffer.snprintf { cells, len := 0, alloc := 4096, writes := [] } (respStart ns.text)).memcpy
    listStart

def endBody (b : OutBuffer) : OutBuffer := ((reserveEnd b).memcpy listEnd).snprintf respEnd

def buildBody (cells : Int → Char) (ns : Namespace) (entryList : List ε) (number : Int) (s : σ) :
    OutBuffer × σ :=
  let (b, s) := listLoop lookup entryList number (startBody cells ns) s
  (endBody b, s)

/-- The texts of the entries that the lookups find, one after the other. -/
def found : List ε → σ → List CString
  | [], _ => []
  | e :: entries, s =>
      match lookup e s with
      | (none, s) => found entries s
      | (some text, s) => text :: found entries s

end functions

def sdnText (entry : PortmappingEntry) : CString :=
  entryText entry.rhost entry.eport entry.proto entry.iport entry.iaddr [] entry.leaseduration

/-- The list of the controller is complete, and has no descriptions. -/
def sdnLookup {σ : Type*} (entry : PortmappingEntry) (s : σ) : Option CString × σ :=
  (some (sdnText entry), s)

/-- What `%s` prints of the buffer for a description of so many bytes, with the string behind it. -/
def printedDesc (desclen : Nat) (behind desc : CString) : CString :=
  if desc.length < desclen then desc else desc.take desclen ++ behind

/-- `behind` is what the stack holds behind the buffer of the description. -/
def localLookup (env : Env) (behind : RedirectRule → CString) (protocol : CString) (eport : UInt16)
    (d : Daemon) : Option CString × Daemon :=
  let (infos, d) := upnpGetRedirectionInfos env eport protocol d
  (infos.map fun (rule, leaseduration) =>
    entryText rule.rhost eport protocol rule.iport rule.iaddr
      (printedDesc 64 (behind rule) rule.desc) leaseduration, d)

/-- The arguments, with 1000 in the place of 0 for the number of ports. -/
def listArguments (h : Upnphttp) : Except SoapReply (UInt16 × UInt16 × CString × Int) :=
  match getValueFromNameValueList h "NewStartPort", getValueFromNameValueList h "NewEndPort",
      getValueFromNameValueList h "NewProtocol", getValueFromNameValueList h "NewNumberOfPorts" with
  | some startport, some endport, some protocol, some number =>
    if isNumeric number ∧ isNumeric startport ∧ isNumeric endport then
      if atous startport > atous endport then .error (.soapError 733 "InconsistentParameter")
      else .ok (atous startport, atous endport, protocol, if atoi number = 0 then 1000 else atoi number)
    else .error invalidArgs
  | _, _, _, _ => .error invalidArgs

/-- `inRange` is the list of `upnp_get_portmappings_in_range`. -/
def getListOfPortMappings {ε σ : Type*}
    (inRange : UInt16 → UInt16 → CString → σ → Option (List ε) × σ)
    (lookup : CString → ε → σ → Option CString × σ) (cells : Int → Char) (ns : Namespace)
    (h : Upnphttp) (s : σ) : Except SoapReply OutBuffer × σ :=
  match listArguments h with
  | .error reply => (.error reply, s)
  | .ok (startport, endport, protocol, number) =>
    let (entryList, s) := inRange startport endport protocol s
    match entryList.getD [] with
    | [] => (.error (.soapError 730 "PortMappingNotFound"), s)
    | e :: entries =>
      let (b, s) := buildBody (lookup protocol) cells ns (e :: entries) number s
      (.ok b, s)

section listing
variable {ε σ : Type*} {lookup : ε → σ → Option CString × σ} {b : OutBuffer} {text : CString}

/-- What is allocated when an entry is written behind so many characters. -/
def capacity (n : Nat) : Nat := (n + 1024 + 4095) / 4096 * 4096

/-- Each text is shorter than what is left for it. -/
def Fits : Nat → List CString → Prop
  | _, [] => True
  | n, text :: texts => n + text.length < capacity n ∧ Fits (n + text.length) texts

/-- The buffer between two entries. -/
structure Ready (b : OutBuffer) (text : CString) : Prop extends Holds b text where
  whole : b.alloc % 4096 = 0
  least : b.alloc < text.length + 1024 + 4096
  within : text.length ≤ b.alloc

theorem reserve_holds (ready : Ready b text) (small : text.length < 2 ^ 31) :
    Holds (reserve b) text ∧ (reserve b).alloc = capacity text.length := by
  have len := ready.len
  have whole := ready.whole
  have least := ready.least
  have within := ready.within
  unfold reserve capacity
  split
  · constructor
    · exact { len := ready.len, cells := ready.cells, inside := ready.inside }
    · dsimp only
      omega
  · constructor
    · exact ready.toHolds
    · omega

theorem ready_snprintf {t : CString} (ready : Ready b text)
    (fits : text.length + t.length < capacity text.length)
    (small : text.length + t.length < 2 ^ 31) : Ready ((reserve b).snprintf t) (text ++ t) := by
  obtain ⟨holds, alloc⟩ := reserve_holds ready (by omega)
  have kept : ((reserve b).snprintf t).alloc = capacity text.length := alloc
  have written := snprintf_holds holds (s := t) (by omega) small
  refine { written with whole := ?_, least := ?_, within := ?_ }
  · rw [kept]
    unfold capacity
    omega
  · rw [kept, List.length_append]
    unfold capacity
    omega
  · rw [kept, List.length_append]
    omega

theorem ready_reserve (ready : Ready b text) (small : text.length < 2 ^ 31) :
    Ready (reserve b) text := by
  obtain ⟨holds, alloc⟩ := reserve_holds ready small
  refine { holds with whole := ?_, least := ?_, within := ?_ }
  · rw [alloc]
    unfold capacity
    omega
  · rw [alloc]
    unfold capacity
    omega
  · rw [alloc]
    unfold capacity
    omega

/-- What the loop prints. -/
def printed (lookup : ε → σ → Option CString × σ) (entries : List ε) (number : Int) (s : σ) :
    List CString :=
  (found lookup entries s).take number.toNat

theorem printed_none {e : ε} {s s' : σ} (missing : lookup e s = (none, s')) (entries : List ε)
    (number : Int) : printed lookup (e :: entries) number s = printed lookup entries number s' := by
  simp only [printed, found, missing]

theorem printed_some {e : ε} {s s' : σ} {t : CString} (here : lookup e s = (some t, s'))
    (entries : List ε) {number : Int} (more : number > 0) :
    printed lookup (e :: entries) number s = t :: printed lookup entries (number - 1) s' := by
  have count : number.toNat = (number - 1).toNat + 1 := by omega
  simp only [printed, found, here, count, List.take_succ_cons]

theorem printed_done (entries : List ε) {number : Int} (done : ¬ number > 0) (s : σ) :
    printed lookup entries number s = [] := by
  have count : number.toNat = 0 := by omega
  simp only [printed, count, List.take_zero]

theorem listLoop_done (entries : List ε) {number : Int} (done : ¬ number > 0) (s : σ) :
    listLoop lookup entries number b s = (b, s) := by
  cases entries with
  | nil => rfl
  | cons e entries => rw [listLoop, if_neg done]

theorem listLoop_none {e : ε} {s s' : σ} (missing : lookup e s = (none, s')) (entries : List ε)
    {number : Int} (more : number > 0) :
    listLoop lookup (e :: entries) number b s = listLoop lookup entries number (reserve b) s' := by
  rw [listLoop, if_pos more]
  simp only [missing]

theorem listLoop_some {e : ε} {s s' : σ} {t : CString} (here : lookup e s = (some t, s'))
    (entries : List ε) {number : Int} (more : number > 0) :
    listLoop lookup (e :: entries) number b s =
      listLoop lookup entries (number - 1) ((reserve b).snprintf t) s' := by
  rw [listLoop, if_pos more]
  simp only [here]

/-- While the texts fit, the buffer holds them all. -/
theorem listLoop_ready (ready : Ready b text) (entries : List ε) (number : Int) (s : σ)
    (fits : Fits text.length (printed lookup entries number s))
    (small : text.length + (printed lookup entries number s).flatten.length < 2 ^ 31) :
    Ready (listLoop lookup entries number b s).1
      (text ++ (printed lookup entries number s).flatten) := by
  induction entries generalizing number b s text with
  | nil => simpa [listLoop, printed, found] using ready
  | cons e entries ih =>
    by_cases more : number > 0
    · rcases looked : lookup e s with ⟨outcome, s'⟩
      cases outcome with
      | none =>
        rw [printed_none looked] at fits small ⊢
        rw [listLoop_none looked entries more]
        exact ih (ready_reserve ready (by omega)) number s' fits small
      | some t =>
        rw [printed_some looked entries more] at fits small ⊢
        rw [List.flatten_cons, List.length_append] at small
        rw [listLoop_some looked entries more, List.flatten_cons, ← List.append_assoc]
        have later := ready_snprintf ready fits.1 (by omega)
        apply ih later
        · rw [List.length_append]
          exact fits.2
        · rw [List.length_append]
          omega
    · rw [printed_done _ more, listLoop_done _ more]
      simpa using ready

@[simp] theorem writes_reserve (b : OutBuffer) : (reserve b).writes = b.writes := by
  unfold reserve
  split
  · rfl
  · rfl

@[simp] theorem len_reserve (b : OutBuffer) : (reserve b).len = b.len := by
  unfold reserve
  split
  · rfl
  · rfl

theorem snprintf_recorded (b : OutBuffer) (t : CString) : b.writes ⊆ (b.snprintf t).writes := by
  intro w member
  simp only [OutBuffer.snprintf, OutBuffer.wrote, List.mem_append]
  exact .inl member

theorem listLoop_recorded (entries : List ε) (number : Int) (b : OutBuffer) (s : σ) :
    b.writes ⊆ (listLoop lookup entries number b s).1.writes := by
  induction entries generalizing number b s with
  | nil => exact List.Subset.refl _
  | cons e entries ih =>
    by_cases more : number > 0
    · rcases looked : lookup e s with ⟨outcome, s'⟩
      cases outcome with
      | none =>
        rw [listLoop_none looked entries more, ← writes_reserve b]
        exact ih number (reserve b) s'
      | some t =>
        rw [listLoop_some looked entries more]
        rw [← writes_reserve b]
        exact List.Subset.trans (snprintf_recorded (reserve b) t) (ih (number - 1) _ s')
    · rw [listLoop_done _ more]
      exact List.Subset.refl _

/-- A length that has run over stays negative, or the next write is outside. -/
theorem listLoop_negative (entries : List ε) (number : Int) (s : σ) (negative : b.len < 0)
    (inside : ∀ w ∈ (listLoop lookup entries number b s).1.writes, w.Inside) :
    (listLoop lookup entries number b s).1.len < 0 := by
  induction entries generalizing number b s with
  | nil => exact negative
  | cons e entries ih =>
    by_cases more : number > 0
    · rcases looked : lookup e s with ⟨outcome, s'⟩
      cases outcome with
      | none =>
        rw [listLoop_none looked entries more] at inside ⊢
        rw [← len_reserve] at negative
        exact ih number s' negative inside
      | some t =>
        rw [listLoop_some looked entries more] at inside
        have write := wrote_inside (b := reserve b) fun w member =>
          inside w (listLoop_recorded entries (number - 1) _ s' member)
        rw [len_reserve] at write
        omega
    · rw [listLoop_done _ more]
      exact negative

/-- What fits has been written inside, and what has been written inside fits. -/
theorem listLoop_fits (ready : Ready b text) (small : text.length < 2 ^ 31) (entries : List ε)
    (number : Int) (s : σ)
    (inside : ∀ w ∈ (listLoop lookup entries number b s).1.writes, w.Inside)
    (counted : 0 ≤ (listLoop lookup entries number b s).1.len) :
    Fits text.length (printed lookup entries number s) ∧
      text.length + (printed lookup entries number s).flatten.length < 2 ^ 31 := by
  induction entries generalizing number b s text with
  | nil =>
    simp only [printed, found, List.take_nil, List.flatten_nil, List.length_nil]
    exact ⟨trivial, small⟩
  | cons e entries ih =>
    by_cases more : number > 0
    · rcases looked : lookup e s with ⟨outcome, s'⟩
      cases outcome with
      | none =>
        rw [printed_none looked]
        rw [listLoop_none looked entries more] at inside counted
        exact ih (ready_reserve ready small) small number s' inside counted
      | some t =>
        rw [printed_some looked entries more, List.flatten_cons, List.length_append]
        rw [listLoop_some looked entries more] at inside counted
        obtain ⟨holds, alloc⟩ := reserve_holds ready small
        have write := wrote_inside (b := reserve b) fun w member =>
          inside w (listLoop_recorded entries (number - 1) _ s' member)
        rw [holds.len, alloc] at write
        have fits : text.length + t.length < capacity text.length := by omega
        have sum : text.length + t.length < 2 ^ 31 := by
          by_contra large
          have wrapped : ((reserve b).snprintf t).len < 0 := by
            apply wrote_over holds.len (by omega)
            unfold capacity at fits
            omega
          have later := listLoop_negative entries (number - 1) s' wrapped inside
          omega
        have next := ready_snprintf ready fits sum
        have rest := ih next (by rw [List.length_append]; exact sum) (number - 1) s' inside counted
        rw [List.length_append] at rest
        refine ⟨⟨fits, rest.1⟩, ?_⟩
        omega
    · rw [printed_done _ more]
      exact ⟨trivial, by simpa using small⟩

theorem around_length {a c t : CString} {m n : Nat} (before : a.length = m) (behind : c.length = n) :
    (a ++ t ++ c).length = t.length + (m + n) := by
  simp only [List.length_append, before, behind]
  omega

theorem respStart_length (ns : CString) : (respStart ns).length = ns.length + (42 + 27) :=
  around_length (by decide) (by decide)

theorem joined_length {a b c d : String} {k l m n : Nat} (first : a.toList.length = k)
    (second : b.toList.length = l) (third : c.toList.length = m) (fourth : d.toList.length = n) :
    (a ++ b ++ c ++ d).toList.length = k + l + m + n := by
  simp only [String.toList_append, List.length_append, first, second, third, fourth]

theorem listStart_length : listStart.length = 68 + 54 + 60 + 56 :=
  joined_length (by decide) (by decide) (by decide) (by decide)

theorem listEnd_length : listEnd.length = 20 := by decide

theorem respEnd_length : respEnd.length = 54 := by decide

theorem opened_ready (cells : Int → Char) {first second : CString}
    (short : first.length + second.length + 1 ≤ 4096) :
    Ready ((OutBuffer.snprintf { cells, len := 0, alloc := 4096, writes := [] } first).memcpy
      second) (first ++ second) := by
  have fresh : Holds { cells, len := 0, alloc := 4096, writes := [] } [] := by
    refine { len := rfl, cells := ?_, inside := ?_ }
    · intro j impossible
      simp at impossible
    · intro w member
      cases member
  have one := snprintf_holds fresh (s := first)
    (by simp only [List.length_nil]; omega) (by simp only [List.length_nil]; omega)
  rw [List.nil_append] at one
  have alloc : (OutBuffer.snprintf { cells, len := 0, alloc := 4096, writes := [] }
      first).alloc = 4096 := rfl
  have both := memcpy_holds one (s := second) (by omega) (by omega)
  constructor
  · exact both
  · show 4096 % 4096 = 0
    rfl
  · show 4096 < (first ++ second).length + 1024 + 4096
    omega
  · show (first ++ second).length ≤ 4096
    rw [List.length_append]
    omega

theorem start_ready (cells : Int → Char) (ns : Namespace) :
    Ready (startBody cells ns) (respStart ns.text ++ listStart) := by
  have short := ns.short
  have first := respStart_length ns.text
  have second := listStart_length
  exact opened_ready cells (by omega)

@[simp] theorem writes_reserveEnd (b : OutBuffer) : (reserveEnd b).writes = b.writes := by
  unfold reserveEnd
  split
  · rfl
  · rfl

@[simp] theorem len_reserveEnd (b : OutBuffer) : (reserveEnd b).len = b.len := by
  unfold reserveEnd
  split
  · rfl
  · rfl

theorem reserveEnd_holds (ready : Ready b text) (small : text.length < 2 ^ 31) :
    Holds (reserveEnd b) text ∧
      text.length + (21 + 1024) ≤ (reserveEnd b).alloc := by
  have len := ready.len
  have within := ready.within
  unfold reserveEnd
  split
  · constructor
    · exact { len := ready.len, cells := ready.cells, inside := ready.inside }
    · dsimp only
      omega
  · constructor
    · exact ready.toHolds
    · omega

/-- The margin of the end is enough for both tags. -/
theorem endBody_holds (ready : Ready b text) (small : text.length + (20 + 54) < 2 ^ 31) :
    Holds (endBody b) (text ++ listEnd ++ respEnd) := by
  have first := listEnd_length
  have second := respEnd_length
  obtain ⟨holds, alloc⟩ := reserveEnd_holds ready (by omega)
  have one := memcpy_holds holds (s := listEnd) (by omega) (by omega)
  have kept : ((reserveEnd b).memcpy listEnd).alloc = (reserveEnd b).alloc := rfl
  apply snprintf_holds one
  · rw [List.length_append, kept]
    omega
  · rw [List.length_append]
    omega

/-- A body of 2^31 characters or more is not handed on as it is. -/
theorem endBody_small (ready : Ready b text) (small : text.length < 2 ^ 31)
    (inside : ∀ w ∈ (endBody b).writes, w.Inside)
    (contents : (endBody b).contents = text ++ listEnd ++ respEnd) :
    text.length + (20 + 54) < 2 ^ 31 := by
  have first := listEnd_length
  have second := respEnd_length
  obtain ⟨holds, alloc⟩ := reserveEnd_holds ready small
  have write := wrote_inside (b := (reserveEnd b).memcpy listEnd) inside
  have counted : text.length + listEnd.length < 2 ^ 31 := by
    by_contra large
    have wrapped : ((reserveEnd b).memcpy listEnd).len < 0 :=
      wrote_over holds.len (by omega) (by omega) _
    omega
  have one := memcpy_holds holds (s := listEnd) (by omega) counted
  by_contra large
  have wrapped : (endBody b).len < 0 := by
    apply wrote_over one.len
    · rw [List.length_append]
      omega
    · rw [List.length_append]
      omega
  have nothing : (endBody b).contents = [] := by
    have zero : (endBody b).len.toNat = 0 := by omega
    rw [OutBuffer.contents, zero]
    rfl
  have length := congrArg List.length contents
  rw [nothing, List.length_append, List.length_append, List.length_nil] at length
  omega

theorem endBody_recorded (b : OutBuffer) : b.writes ⊆ ((reserveEnd b).memcpy listEnd).writes ∧
    ((reserveEnd b).memcpy listEnd).writes ⊆ (endBody b).writes := by
  constructor
  · intro w member
    simp only [OutBuffer.memcpy, OutBuffer.wrote, writes_reserveEnd, List.mem_append]
    exact .inl member
  · exact snprintf_recorded _ respEnd

/-- The start tag, the entries and the end tags. -/
def wholeBody (ns : Namespace) (texts : List CString) : CString :=
  respStart ns.text ++ listStart ++ texts.flatten ++ listEnd ++ respEnd

/-- Each write fits into what is allocated, and the body is the whole list. -/
def Complete (b : OutBuffer) (ns : Namespace) (texts : List CString) : Prop :=
  (∀ w ∈ b.writes, w.Inside) ∧ b.contents = wholeBody ns texts

/-- The list is built completely exactly if each entry is shorter than what is left for it, and
    the whole body has fewer than 2^31 characters. -/
theorem buildBody_complete_iff (lookup : ε → σ → Option CString × σ) (cells : Int → Char)
    (ns : Namespace) (entryList : List ε) (number : Int) (s : σ) :
    Complete (buildBody lookup cells ns entryList number s).1 ns
        ((found lookup entryList s).take number.toNat) ↔
      Fits (respStart ns.text ++ listStart).length ((found lookup entryList s).take number.toNat) ∧
        (wholeBody ns ((found lookup entryList s).take number.toNat)).length < 2 ^ 31 := by
  have first := listEnd_length
  have second := respEnd_length
  have start := start_ready cells ns
  have short := ns.short
  have opening : (respStart ns.text ++ listStart).length = ns.text.length + (42 + 27) + 238 := by
    rw [List.length_append, respStart_length, listStart_length]
  have whole : ∀ texts, (wholeBody ns texts).length =
      (respStart ns.text ++ listStart).length + texts.flatten.length + (20 + 54) := by
    intro texts
    simp only [wholeBody, List.length_append, first, second]
  have loop := @listLoop_ready ε σ lookup _ _ start entryList number s
  have fits := @listLoop_fits ε σ lookup _ _ start (by omega) entryList number s
  unfold printed at loop fits
  rw [whole]
  generalize (found lookup entryList s).take number.toNat = texts at loop fits ⊢
  have same : (buildBody lookup cells ns entryList number s).1 =
      endBody (listLoop lookup entryList number (startBody cells ns) s).1 := rfl
  rw [same]
  generalize (listLoop lookup entryList number (startBody cells ns) s).1 = b at loop fits ⊢
  constructor
  · intro complete
    obtain ⟨inside, contents⟩ := complete
    obtain ⟨earlier, later⟩ := endBody_recorded b
    have write := wrote_inside (b := reserveEnd b) fun w member => inside w (later member)
    rw [len_reserveEnd] at write
    obtain ⟨each, small⟩ := fits (fun w member => inside w (later (earlier member))) write.1
    have bounded := endBody_small (loop each small) (by rw [List.length_append]; exact small) inside
      contents
    rw [List.length_append] at bounded
    exact ⟨each, by omega⟩
  · intro fitting
    obtain ⟨each, small⟩ := fitting
    have holds := endBody_holds (loop each (by omega)) (by rw [List.length_append]; omega)
    exact ⟨holds.inside, holds_contents holds⟩

/-- Fewer than 1024 characters always fit. -/
theorem short_fits (n : Nat) (texts : List CString) (short : ∀ t ∈ texts, t.length < 1024) :
    Fits n texts := by
  induction texts generalizing n with
  | nil => trivial
  | cons t texts ih =>
    have first := short t List.mem_cons_self
    constructor
    · unfold capacity
      omega
    · exact ih _ fun u member => short u (List.mem_cons_of_mem t member)

theorem found_sdn {σ : Type*} (entryList : List PortmappingEntry) (s : σ) :
    found sdnLookup entryList s = entryList.map sdnText := by
  induction entryList with
  | nil => rfl
  | cons entry entryList ih => simp only [found, sdnLookup, List.map_cons, ← ih]

/-- A request that is answered with a list has had it built from its arguments. -/
theorem getListOfPortMappings_ok {inRange : UInt16 → UInt16 → CString → σ → Option (List ε) × σ}
    {lookup : CString → ε → σ → Option CString × σ} {cells : Int → Char} {ns : Namespace}
    {h : Upnphttp} {s : σ} {b : OutBuffer}
    (answered : (getListOfPortMappings inRange lookup cells ns h s).1 = .ok b) :
    ∃ startport endport protocol number entryList s',
      listArguments h = .ok (startport, endport, protocol, number) ∧
        inRange startport endport protocol s = (some entryList, s') ∧
        b = (buildBody (lookup protocol) cells ns entryList number s').1 := by
  unfold getListOfPortMappings at answered
  cases arguments : listArguments h with
  | error reply =>
    rw [arguments] at answered
    cases answered
  | ok args =>
    obtain ⟨startport, endport, protocol, number⟩ := args
    rw [arguments] at answered
    rcases listed : inRange startport endport protocol s with ⟨entryList, s'⟩
    simp only [listed] at answered
    cases entryList with
    | none => cases answered
    | some entryList =>
      cases entryList with
      | nil => cases answered
      | cons e entries =>
        exact ⟨startport, endport, protocol, number, e :: entries, s', rfl, listed,
          (Except.ok.inj answered).symm⟩

/-- With SDN and without, the body is the whole list exactly if each entry that is printed is
    shorter than what is left for it, and the body has fewer than 2^31 characters. -/
theorem list_complete_iff (cells : Int → Char) (ns : Namespace) (number : Int) :
    (∀ entryList : List PortmappingEntry,
      Complete (buildBody sdnLookup cells ns entryList number ()).1 ns
          ((entryList.take number.toNat).map sdnText) ↔
        Fits (respStart ns.text ++ listStart).length ((entryList.take number.toNat).map sdnText) ∧
          (wholeBody ns ((entryList.take number.toNat).map sdnText)).length < 2 ^ 31) ∧
    (∀ (env : Env) (behind : RedirectRule → CString) (protocol : CString) (ports : List UInt16)
        (d : Daemon),
      Complete (buildBody (localLookup env behind protocol) cells ns ports number d).1 ns
          ((found (localLookup env behind protocol) ports d).take number.toNat) ↔
        Fits (respStart ns.text ++ listStart).length
            ((found (localLookup env behind protocol) ports d).take number.toNat) ∧
          (wholeBody ns ((found (localLookup env behind protocol) ports d).take
            number.toNat)).length < 2 ^ 31) := by
  constructor
  · intro entryList
    have complete := buildBody_complete_iff sdnLookup cells ns entryList number ()
    rwa [found_sdn, ← List.map_take] at complete
  · intro env behind protocol ports d
    exact buildBody_complete_iff (localLookup env behind protocol) cells ns ports number d

end listing

theorem rhost_le_text (entry : PortmappingEntry) : entry.rhost.length ≤ (sdnText entry).length := by
  apply List.IsInfix.length_le
  unfold sdnText entryText
  simp only [List.append_assoc]
  exact ⟨_, _, List.append_assoc _ _ _⟩

def wanIpConnection : Namespace :=
  { text := "urn:schemas-upnp-org:service:WANIPConnection:2".toList, short := by decide }

def longRhost : PortmappingEntry :=
  { rhost := List.replicate 4096 'r', eport := 80, proto := "TCP".toList, iaddr := "10.0.0.2".toList
    iport := 80, leaseduration := 0 }

theorem long_rhost_truncated :
    ¬ Complete (buildBody sdnLookup (fun _ => '\x00') wanIpConnection [longRhost] 1 ()).1
      wanIpConnection [sdnText longRhost] := by
  have long : 4096 ≤ (sdnText longRhost).length := by
    have rhost : longRhost.rhost.length = 4096 := List.length_replicate
    have text := rhost_le_text longRhost
    rwa [rhost] at text
  have complete := buildBody_complete_iff sdnLookup (fun _ => '\x00') wanIpConnection [longRhost] 1 ()
  have one : (found sdnLookup [longRhost] ()).take (1 : Int).toNat = [sdnText longRhost] := by
    rw [found_sdn]
    rfl
  have name : wanIpConnection.text.length = 46 := by decide
  rw [one, List.length_append, respStart_length, listStart_length, name] at complete
  rw [complete]
  generalize sdnText longRhost = text at long
  intro fitting
  have room := fitting.1.1
  unfold capacity at room
  omega

end PortMappingList

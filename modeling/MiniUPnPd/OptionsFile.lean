import MiniUPnPd.LearnDscp
import MiniUPnPd.LeaseFile
import MiniUPnPd.PermissionLines

/-!
The configuration file. Every line is an option, a permission rule, a DSCP rule, a comment or empty,
and is read in pieces of at most 1023 characters. The values of the options are collected in one
block of memory that moves as it grows, so what is kept of them at first is where they start in it.
Allocations succeed.
-/
namespace OptionsFile
open CPointer (White starts)
open CText
open LearnDscp (DscpValues readLearnDscpLine set_learn_dscp)
open LeaseFile (Ended fgets fgetsLines trim)
open PermissionLines (NetAt PortsAt readPermissionLine)
open UpnpPermissions (UpnpPerm)

inductive OptionId
  | extIfname | extIfname6 | extIp | extPerformStun | extStunHost | extStunPort
  | listeningIp | ipv6ListeningIp | ipv6Disable | port | httpsPort
  | bitrateUp | bitrateDown | presentationUrl
  | friendlyName | manufacturerName | manufacturerUrl | modelName | modelDescription | modelUrl
  | notifyInterval | systemUptime | packetLog | uuid | serial | modelNumber
  | cleanThreshold | cleanInterval
  | forwardChain | natChain | natPostChain
  | enableNatpmp | pcpMinLifetime | pcpMaxLifetime | pcpAllowThirdParty | enable
  | anchor | queue | tag | quickrules
  | leaseFile | forceIgdDescV1 | minissdpdSocket | secureMode | controllerAddr
  deriving DecidableEq

structure Build where
  useSdn : Bool
  enableIpv6 : Bool
  enableHttps : Bool
  enableManufacturerInfo : Bool
  useNetfilter : Bool
  enableNatpmp : Bool
  enablePcp : Bool
  usePf : Bool
  pfEnableFilterRules : Bool
  enableLeasefile : Bool
  igdV2 : Bool
  useCustomPermMechanism : Bool
  pcpSadscp : Bool

/-- A row of the table of options, and the builds that have it. -/
structure Row where
  built : Build → Bool
  id : OptionId
  name : CString

def optionRows : List Row :=
  [⟨fun b => !b.useSdn, .extIfname, "ext_ifname".toList⟩,
   ⟨fun b => !b.useSdn && b.enableIpv6, .extIfname6, "ext_ifname6".toList⟩,
   ⟨fun b => !b.useSdn, .extIp, "ext_ip".toList⟩,
   ⟨fun b => !b.useSdn, .extPerformStun, "ext_perform_stun".toList⟩,
   ⟨fun b => !b.useSdn, .extStunHost, "ext_stun_host".toList⟩,
   ⟨fun b => !b.useSdn, .extStunPort, "ext_stun_port".toList⟩,
   ⟨fun _ => true, .listeningIp, "listening_ip".toList⟩,
   ⟨fun b => b.enableIpv6, .ipv6ListeningIp, "ipv6_listening_ip".toList⟩,
   ⟨fun b => b.enableIpv6, .ipv6Disable, "ipv6_disable".toList⟩,
   ⟨fun _ => true, .port, "port".toList⟩,
   ⟨fun _ => true, .port, "http_port".toList⟩,
   ⟨fun b => b.enableHttps, .httpsPort, "https_port".toList⟩,
   ⟨fun _ => true, .bitrateUp, "bitrate_up".toList⟩,
   ⟨fun _ => true, .bitrateDown, "bitrate_down".toList⟩,
   ⟨fun _ => true, .presentationUrl, "presentation_url".toList⟩,
   ⟨fun b => b.enableManufacturerInfo, .friendlyName, "friendly_name".toList⟩,
   ⟨fun b => b.enableManufacturerInfo, .manufacturerName, "manufacturer_name".toList⟩,
   ⟨fun b => b.enableManufacturerInfo, .manufacturerUrl, "manufacturer_url".toList⟩,
   ⟨fun b => b.enableManufacturerInfo, .modelName, "model_name".toList⟩,
   ⟨fun b => b.enableManufacturerInfo, .modelDescription, "model_description".toList⟩,
   ⟨fun b => b.enableManufacturerInfo, .modelUrl, "model_url".toList⟩,
   ⟨fun _ => true, .notifyInterval, "notify_interval".toList⟩,
   ⟨fun _ => true, .systemUptime, "system_uptime".toList⟩,
   ⟨fun _ => true, .packetLog, "packet_log".toList⟩,
   ⟨fun _ => true, .uuid, "uuid".toList⟩,
   ⟨fun _ => true, .serial, "serial".toList⟩,
   ⟨fun _ => true, .modelNumber, "model_number".toList⟩,
   ⟨fun _ => true, .cleanThreshold, "clean_ruleset_threshold".toList⟩,
   ⟨fun _ => true, .cleanInterval, "clean_ruleset_interval".toList⟩,
   ⟨fun b => b.useNetfilter, .forwardChain, "upnp_forward_chain".toList⟩,
   ⟨fun b => b.useNetfilter, .natChain, "upnp_nat_chain".toList⟩,
   ⟨fun b => b.useNetfilter, .natPostChain, "upnp_nat_postrouting_chain".toList⟩,
   ⟨fun b => b.enableNatpmp, .enableNatpmp, "enable_natpmp".toList⟩,
   ⟨fun b => b.enablePcp, .pcpMinLifetime, "min_lifetime".toList⟩,
   ⟨fun b => b.enablePcp, .pcpMaxLifetime, "max_lifetime".toList⟩,
   ⟨fun b => b.enablePcp, .pcpAllowThirdParty, "pcp_allow_thirdparty".toList⟩,
   ⟨fun _ => true, .enable, "enable_upnp".toList⟩,
   ⟨fun b => b.usePf, .anchor, "anchor".toList⟩,
   ⟨fun b => b.usePf, .queue, "queue".toList⟩,
   ⟨fun b => b.usePf, .tag, "tag".toList⟩,
   ⟨fun b => b.pfEnableFilterRules, .quickrules, "quickrules".toList⟩,
   ⟨fun b => b.enableLeasefile, .leaseFile, "lease_file".toList⟩,
   ⟨fun b => b.igdV2, .forceIgdDescV1, "force_igd_desc_v1".toList⟩,
   ⟨fun _ => true, .minissdpdSocket, "minissdpdsocket".toList⟩,
   ⟨fun _ => true, .secureMode, "secure_mode".toList⟩,
   ⟨fun b => b.useSdn, .controllerAddr, "controller_address".toList⟩]

/-- The first row with the name decides. -/
def optionId (build : Build) (name : CString) : Option OptionId :=
  (optionRows.find? fun row => row.built build && row.name = name).map (·.id)

/-- An option with the offset of its value. -/
structure Opt where
  id : OptionId
  value : Nat

structure Config where
  aryOptions : List Opt
  stringRepo : List Char
  upnppermlist : List UpnpPerm
  dscpValuesList : List DscpValues
  stderr : List CString

def Config.empty : Config :=
  { aryOptions := [], stringRepo := [], upnppermlist := [], dscpValuesList := [], stderr := [] }

/-- What the value of an option points to in the end. -/
def Config.value (c : Config) (o : Opt) : CString := untilNul (c.stringRepo.drop o.value)

/-- What the memory holds where a line is parsed to, and what a shift by 32 bits gives. -/
structure Memory where
  perm : Nat → UpnpPerm
  dscp : Nat → DscpValues
  shifted : Int → InAddr

/-- The text without the newline and the white space before it. A piece without newline stays. -/
def trimEnd (buffer : CString) : CString :=
  if '\n' ∈ buffer then (buffer.takeWhile (· ≠ '\n')).rdropWhile isspace else buffer

/-- The text before the first equals sign and the text after it. -/
def cutEquals (name : CString) : Option (CString × CString) :=
  match name.dropWhile (· ≠ '=') with
  | [] => none
  | _ :: rest => some (name.takeWhile (· ≠ '='), rest)

def isPermission (name : CString) : Bool :=
  name.length > 6 ∧ ("allow".toList.isPrefixOf name ∨ "deny".toList.isPrefixOf name)

def isDscp (name : CString) : Bool := name.length > 15 ∧ set_learn_dscp.isPrefixOf name

def parsingError (fname : CString) (linenum : Nat) (name : CString) : CString :=
  "parsing error file ".toList ++ fname ++ " line ".toList ++ utoa linenum ++ " : ".toList ++
    name ++ ['\n']

def invalidOption (fname : CString) (linenum : Nat) (name value : CString) : CString :=
  "invalid option in file ".toList ++ fname ++ " line ".toList ++ utoa linenum ++ " : ".toList ++
    name ++ '=' :: value ++ ['\n']

def Config.complain (c : Config) (text : CString) : Config :=
  { c with stderr := c.stderr ++ [text] }

def Config.add (c : Config) (id : OptionId) (value : CString) : Config :=
  { c with
    aryOptions := c.aryOptions ++ [⟨id, c.stringRepo.length⟩]
    stringRepo := c.stringRepo ++ (value ++ ['\x00']) }

def readOption (build : Build) (fname : CString) (linenum : Nat) (name : CString) (c : Config) :
    Config :=
  match cutEquals name with
  | none => c.complain (parsingError fname linenum name)
  | some (front, rest) =>
    let name := front.rdropWhile isspace
    let value := rest.dropWhile isspace
    match optionId build name with
    | none => c.complain (invalidOption fname linenum name value)
    | some id => c.add id value

/-- The line from `name` on, if nothing outside of it is read. -/
def readName (build : Build) (memory : Memory) (fname : CString) (linenum : Nat)
    (name : CString) (c : Config) : Option Config :=
  if name.head? = some '#' ∨ name = [] then some c
  else if !build.useCustomPermMechanism ∧ isPermission name then
    (readPermissionLine memory.shifted (memory.perm linenum) name).map fun (ret, perm) =>
      if ret ≥ 0 then { c with upnppermlist := c.upnppermlist ++ [perm] }
      else c.complain (parsingError fname linenum name)
  else if build.pcpSadscp ∧ isDscp name then
    (readLearnDscpLine (memory.dscp linenum) name).map fun (ret, v) =>
      if ret ≥ 0 then { c with dscpValuesList := c.dscpValuesList ++ [v] }
      else c.complain (parsingError fname linenum name)
  else some (readOption build fname linenum name c)

/-- One piece of the file. -/
def readLine (build : Build) (memory : Memory) (fname : CString) (linenum : Nat)
    (buffer : CString) (c : Config) : Option Config :=
  readName build memory fname linenum ((trimEnd buffer).dropWhile isspace) c

def readLines (build : Build) (memory : Memory) (fname : CString) :
    (linenum : Nat) → List CString → Config → Option Config
  | _, [], c => some c
  | linenum, buffer :: buffers, c =>
      (readLine build memory fname (linenum + 1) buffer c).bind
        (readLines build memory fname (linenum + 1) buffers)

/-- The return value and what has been read, when the daemon starts. -/
def readoptionsfile (build : Build) (memory : Memory) (fname : CString) (file : Option CString) :
    Option (Int × Config) :=
  if fname = [] then some (-1, .empty)
  else
    match file with
    | none => some (-1, .empty)
    | some content =>
      (readLines build memory fname 0 (fgetsLines 1024 content) .empty).map fun c => (0, c)

section layout

/-- What a line is for, with the white space around its parts. A wrong line is one that is neither
    an option nor a rule that is taken, and an unknown one has a name that no option has. -/
inductive Entry
  | option (lead name gap gap' value trail : CString) (id : OptionId)
  | permission (lead rule trail : CString) (perm : UpnpPerm)
  | dscp (lead rule trail : CString) (v : DscpValues)
  | comment (lead remark : CString)
  | blank (white : CString)
  | wrong (lead text trail : CString)
  | unknown (lead name gap gap' value trail : CString)

/-- The line without its newline. -/
def Entry.line : Entry → CString
  | .option lead name gap gap' value trail _ | .unknown lead name gap gap' value trail =>
      lead ++ (name ++ gap ++ '=' :: (gap' ++ value ++ trail))
  | .permission lead rule trail _ | .dscp lead rule trail _ | .wrong lead rule trail =>
      lead ++ rule ++ trail
  | .comment lead remark => lead ++ '#' :: remark
  | .blank white => white

def Entry.text (e : Entry) : CString := e.line ++ ['\n']

def Entry.setting : Entry → Option (OptionId × CString)
  | .option _ _ _ _ value _ id => some (id, value)
  | _ => none

def Entry.perm : Entry → Option UpnpPerm
  | .permission _ _ _ perm => some perm
  | _ => none

def Entry.dscpValues : Entry → Option DscpValues
  | .dscp _ _ _ v => some v
  | _ => none

/-- What is complained about the line with this number. -/
def Entry.message (fname : CString) (linenum : Nat) : Entry → Option CString
  | .wrong _ text _ => some (parsingError fname linenum text)
  | .unknown _ name _ _ value _ => some (invalidOption fname linenum name value)
  | _ => none

/-- No white space at either end. -/
def Trimmed (s : CString) : Prop := trim s = s

instance (s : CString) : Decidable (Trimmed s) := inferInstanceAs (Decidable (_ = _))

/-- Neither a comment nor like a rule. -/
def Ordinary (build : Build) (s : CString) : Prop :=
  s ≠ [] ∧ s.head? ≠ some '#' ∧ (build.useCustomPermMechanism = false → isPermission s = false) ∧
    (build.pcpSadscp = true → isDscp s = false)

/-- The parts are what they are there for. Not every documented DSCP rule is taken by its reader. -/
def Entry.Written (build : Build) (shifted : Int → InAddr) : Entry → Prop
  | .option lead name gap gap' value trail id =>
      White lead ∧ White gap ∧ White gap' ∧ White trail ∧ optionId build name = some id ∧
        Trimmed value
  | .permission lead rule trail perm =>
      White lead ∧ White trail ∧ Trimmed rule ∧ build.useCustomPermMechanism = false ∧
        isPermission rule = true ∧ ∃ t, PermissionLines.Written rule t perm
  | .dscp lead rule trail v =>
      White lead ∧ White trail ∧ Trimmed rule ∧ build.pcpSadscp = true ∧ isDscp rule = true ∧
        ∀ w, readLearnDscpLine w rule = some (0, v)
  | .comment lead _ => White lead
  | .blank white => White white
  | .wrong lead text trail =>
      White lead ∧ White trail ∧ Trimmed text ∧
        (Ordinary build text ∧ '=' ∉ text ∨
          build.useCustomPermMechanism = false ∧ isPermission text = true ∧
            (∀ w, ∃ w', readPermissionLine shifted w text = some (-1, w')) ∨
          build.pcpSadscp = true ∧ isDscp text = true ∧
            ∀ w, ∃ w', readLearnDscpLine w text = some (-1, w'))
  | .unknown lead name gap gap' value trail =>
      White gap ∧ White gap' ∧ White trail ∧ White lead ∧ Trimmed name ∧ name ≠ [] ∧ '=' ∉ name ∧
        optionId build name = none ∧ Trimmed value ∧
        Ordinary build (trim (lead ++ (name ++ gap ++ '=' :: (gap' ++ value ++ trail))))

/-- One line of text that fits into the buffer. -/
structure Entry.Fits (e : Entry) : Prop where
  short : e.line.length ≤ 1022
  plain : '\n' ∉ e.line ∧ '\x00' ∉ e.line

end layout

section trimming
variable {s t lead : CString}

theorem dropWhile_white (white : White lead) (s : CString) :
    (lead ++ s).dropWhile isspace = s.dropWhile isspace :=
  List.dropWhile_append_of_pos white

theorem rdropWhile_white (white : White t) (s : CString) :
    (s ++ t).rdropWhile isspace = s.rdropWhile isspace := by
  rw [List.rdropWhile, List.rdropWhile, List.reverse_append, List.dropWhile_append_of_pos]
  exact fun c member => white c (List.mem_reverse.mp member)

/-- From the end, nothing is taken away beyond a character that is not white. -/
theorem rdropWhile_stop {c : Char} (visible : isspace c = false) (s t : CString) :
    (s ++ c :: t).rdropWhile isspace = s ++ c :: t.rdropWhile isspace := by
  induction t using List.reverseRecOn with
  | nil =>
    rw [List.rdropWhile_nil, List.rdropWhile_concat_neg _ _ _ (by simp [visible])]
  | append_singleton t d ih =>
    rw [← List.cons_append, ← List.append_assoc]
    by_cases white : isspace d = true
    · rw [List.rdropWhile_concat_pos _ _ _ white, List.rdropWhile_concat_pos _ _ _ white, ih]
    · rw [List.rdropWhile_concat_neg _ _ _ white, List.rdropWhile_concat_neg _ _ _ white]
      simp

/-- Both ends may be trimmed in either order. -/
theorem dropWhile_rdropWhile (s : CString) : (s.rdropWhile isspace).dropWhile isspace = trim s := by
  induction s with
  | nil => rfl
  | cons c s ih =>
    by_cases white : isspace c = true
    · rw [trim, List.dropWhile_cons_of_pos white]
      by_cases all : White s
      · have none : (c :: s).rdropWhile isspace = [] := by
          rw [List.rdropWhile_eq_nil_iff]
          simpa [White, white] using all
        have empty : s.dropWhile isspace = [] := List.dropWhile_eq_nil_iff.mpr all
        rw [none, empty]
        rfl
      · have kept : (c :: s).rdropWhile isspace = c :: s.rdropWhile isspace := by
          simp only [White, not_forall, Bool.not_eq_true] at all
          obtain ⟨d, member, visible⟩ := all
          obtain ⟨front, back, rfl⟩ := List.append_of_mem member
          rw [← List.cons_append, rdropWhile_stop visible, rdropWhile_stop visible]
          rfl
        rw [kept, List.dropWhile_cons_of_pos white, ih]
        rfl
    · have visible : isspace c = false := by simpa using white
      have stopped := rdropWhile_stop visible [] s
      rw [List.nil_append, List.nil_append] at stopped
      rw [trim, List.dropWhile_cons_of_neg white, stopped, List.dropWhile_cons_of_neg white]

theorem trimmed_white (white : White lead) (white' : White t) (trimmed : Trimmed s) :
    trim (lead ++ s ++ t) = s := by
  rw [← dropWhile_rdropWhile, rdropWhile_white white', dropWhile_rdropWhile, trim,
    dropWhile_white white]
  exact trimmed

theorem Trimmed.ends (trimmed : Trimmed s) :
    s.dropWhile isspace = s ∧ s.rdropWhile isspace = s := by
  have front : s.dropWhile isspace = s := by
    have kept : s <+: s.dropWhile isspace := by
      conv_lhs => rw [← trimmed]
      exact List.rdropWhile_prefix _ _
    exact (List.dropWhile_suffix isspace).eq_of_length_le kept.length_le
  refine ⟨front, ?_⟩
  have whole : (s.dropWhile isspace).rdropWhile isspace = s := trimmed
  rwa [front] at whole

/-- A line is read in one piece, without its newline and the white space at its ends. -/
theorem trimEnd_line (plain : '\n' ∉ s) : (trimEnd (s ++ ['\n'])).dropWhile isspace = trim s := by
  have member : '\n' ∈ s ++ ['\n'] := List.mem_append_right _ (List.mem_singleton_self _)
  have before : ∀ c ∈ s, decide (c ≠ '\n') = true := fun c inside =>
    decide_eq_true fun newline => plain (newline ▸ inside)
  have cut : (s ++ ['\n']).takeWhile (· ≠ '\n') = s := by
    rw [List.takeWhile_append_of_pos before]
    simp
  rw [trimEnd, if_pos member, cut, dropWhile_rdropWhile]

theorem fgetsLines_line (short : s.length ≤ 1022) (plain : '\n' ∉ s ∧ '\x00' ∉ s) :
    fgetsLines 1024 (s ++ ['\n']) = [s ++ ['\n']] := by
  have read := @LeaseFile.fgets_front 1023 s plain.1 (by omega) ['\n']
  obtain ⟨room, left⟩ : ∃ room, 1023 - s.length = room + 1 :=
    Nat.exists_eq_succ_of_ne_zero (by omega)
  have newline : fgets (1023 - s.length) ['\n'] = (['\n'], []) := by
    rw [left]
    rfl
  have nonNul : ∀ c ∈ s ++ ['\n'], decide (c ≠ '\x00') = true := by
    intro c member
    rw [decide_eq_true_eq]
    rintro rfl
    rcases List.mem_append.mp member with inside | last
    · exact plain.2 inside
    · exact absurd last (by decide)
  rw [newline] at read
  rw [LeaseFile.fgetsLines_cons 1024 (by simp), read, fgetsLines,
    List.takeWhile_eq_self_iff.mpr nonNul]

end trimming

section entries
variable {build : Build} {memory : Memory} {shifted : Int → InAddr} {fname name rule s : CString}
  {gap gap' value trail lead : CString} {id : OptionId} {e : Entry}

/-- The texts that make a line a rule instead of an option. -/
def keywords : List CString := ["allow".toList, "deny".toList, set_learn_dscp]

/-- No name of an option has white space or an equals sign, begins a comment, or begins like a
    keyword or the other way round. -/
def plainName (name : CString) : Bool :=
  name ≠ [] && name.head? ≠ some '#' && (name.all fun c => !isspace c && c ≠ '=') &&
    keywords.all fun key => !key.isPrefixOf name && !name.isPrefixOf key

theorem optionRows_plain : (optionRows.all fun row => plainName row.name) = true := by decide

theorem plain_of_optionId (found : optionId build name = some id) : plainName name = true := by
  obtain ⟨row, hit, _⟩ := Option.map_eq_some_iff.mp found
  have same : row.name = name := by
    have passed := List.find?_some hit
    simp only [Bool.and_eq_true, decide_eq_true_eq] at passed
    exact passed.2
  rw [← same]
  exact List.all_eq_true.mp optionRows_plain row (List.mem_of_find?_eq_some hit)

theorem keyword_absent (plain : plainName name = true) {key : CString} (listed : key ∈ keywords)
    (s : CString) : key.isPrefixOf (name ++ s) = false := by
  simp only [plainName, Bool.and_eq_true, List.all_eq_true, Bool.not_eq_true'] at plain
  obtain ⟨front, back⟩ := plain.2 key listed
  rw [Bool.eq_false_iff]
  intro begins
  rcases List.prefix_or_prefix_of_prefix (List.isPrefixOf_iff_prefix.mp begins)
      (List.prefix_append name s) with first | second
  · rw [List.isPrefixOf_iff_prefix.mpr first] at front
    cases front
  · rw [List.isPrefixOf_iff_prefix.mpr second] at back
    cases back

theorem ordinary_option (found : optionId build name = some id) (s : CString) :
    Ordinary build (name ++ s) := by
  have plain := plain_of_optionId found
  have allow := keyword_absent plain (List.mem_cons_self : "allow".toList ∈ keywords) s
  have deny := keyword_absent plain
    (List.mem_cons_of_mem _ List.mem_cons_self : "deny".toList ∈ keywords) s
  have dscp := keyword_absent plain
    (List.mem_cons_of_mem _ (List.mem_cons_of_mem _ List.mem_cons_self) :
      set_learn_dscp ∈ keywords) s
  simp only [plainName, Bool.and_eq_true, decide_eq_true_eq] at plain
  have filled : name ++ s ≠ [] := by
    intro empty
    exact plain.1.1.1 (List.append_eq_nil_iff.mp empty).1
  have remark : (name ++ s).head? ≠ some '#' := by
    rw [List.head?_append_of_ne_nil _ plain.1.1.1]
    exact plain.1.1.2
  refine ⟨filled, remark, ?_, ?_⟩
  · intro _
    unfold isPermission
    rw [allow, deny]
    simp
  · intro _
    unfold isDscp
    rw [dscp]
    simp

/-- A rule begins with a letter, and only a DSCP rule with the letter of its keyword. -/
theorem isPermission_head (permission : isPermission s = true) :
    s.head? = some 'a' ∨ s.head? = some 'd' := by
  have begins := (of_decide_eq_true permission).2
  rw [List.isPrefixOf_iff_prefix, List.isPrefixOf_iff_prefix] at begins
  rcases begins with ⟨t, rfl⟩ | ⟨t, rfl⟩
  · exact .inl rfl
  · exact .inr rfl

theorem isDscp_head (dscp : isDscp s = true) : s.head? = some 's' := by
  obtain ⟨t, rfl⟩ := List.isPrefixOf_iff_prefix.mp (of_decide_eq_true dscp).2
  rfl

theorem cutEquals_append (absent : '=' ∉ name) (s : CString) :
    cutEquals (name ++ '=' :: s) = some (name, s) := by
  have other : ∀ c ∈ name, decide (c ≠ '=') = true := fun c inside =>
    decide_eq_true fun equals => absent (equals ▸ inside)
  unfold cutEquals
  rw [List.dropWhile_append_of_pos other, List.takeWhile_append_of_pos other]
  simp

theorem cutEquals_none (absent : '=' ∉ s) : cutEquals s = none := by
  have other : s.dropWhile (· ≠ '=') = [] := by
    rw [List.dropWhile_eq_nil_iff]
    exact fun c inside => decide_eq_true fun equals => absent (equals ▸ inside)
  rw [cutEquals, other]

theorem readOption_none (absent : '=' ∉ s) (linenum : Nat) (c : Config) :
    readOption build fname linenum s c = c.complain (parsingError fname linenum s) := by
  rw [readOption, cutEquals_none absent]

/-- What decides is the name without the white space around it, and so the value. -/
theorem readOption_line (white : White gap) (white' : White gap') (white'' : White trail)
    (whole : name.rdropWhile isspace = name) (absent : '=' ∉ name) (trimmed : Trimmed value)
    (linenum : Nat) (c : Config) :
    readOption build fname linenum
        (name ++ gap ++ '=' :: (gap' ++ value ++ trail).rdropWhile isspace) c =
      match optionId build name with
      | none => c.complain (invalidOption fname linenum name value)
      | some id => c.add id value := by
  have outside : '=' ∉ name ++ gap := by
    intro member
    rcases List.mem_append.mp member with inside | space
    · exact absent inside
    · exact absurd (white '=' space) (by decide)
  unfold readOption
  rw [cutEquals_append outside]
  dsimp only
  rw [rdropWhile_white white, whole, dropWhile_rdropWhile, trimmed_white white' white'' trimmed]

/-- The line of an option without the white space at its ends. -/
theorem trim_option (white : White lead) (visible : name.dropWhile isspace = name)
    (filled : name ≠ []) (t : CString) :
    trim (lead ++ (name ++ gap ++ '=' :: t)) = name ++ gap ++ '=' :: t.rdropWhile isspace := by
  have kept : (name ++ gap ++ '=' :: t).dropWhile isspace = name ++ gap ++ '=' :: t := by
    cases name with
    | nil => exact absurd rfl filled
    | cons d name =>
      have left : (d :: name).dropWhile isspace ≠ [] := by
        rw [visible]
        exact filled
      have shown := List.head_dropWhile_not isspace left
      simp only [visible, List.head_cons] at shown
      rw [List.cons_append, List.cons_append, List.dropWhile_cons_of_neg (by rw [shown]; decide)]
  rw [trim, dropWhile_white white, kept]
  exact rdropWhile_stop (by decide) _ _

theorem readName_ordinary (ordinary : Ordinary build s) (linenum : Nat) (c : Config) :
    readName build memory fname linenum s c = some (readOption build fname linenum s c) := by
  obtain ⟨filled, remark, permission, dscp⟩ := ordinary
  have first : ¬ (s.head? = some '#' ∨ s = []) := by tauto
  have second : ¬ ((!build.useCustomPermMechanism) = true ∧ isPermission s = true) := by
    rintro ⟨custom, rule⟩
    rw [permission (by simpa using custom)] at rule
    cases rule
  have third : ¬ (build.pcpSadscp = true ∧ isDscp s = true) := by
    rintro ⟨built, rule⟩
    rw [dscp built] at rule
    cases rule
  rw [readName, if_neg first, if_neg second, if_neg third]

theorem readName_permission (custom : build.useCustomPermMechanism = false)
    (rule : isPermission s = true) (linenum : Nat) (c : Config) :
    readName build memory fname linenum s c =
      (readPermissionLine memory.shifted (memory.perm linenum) s).map fun (ret, perm) =>
        if ret ≥ 0 then { c with upnppermlist := c.upnppermlist ++ [perm] }
        else c.complain (parsingError fname linenum s) := by
  have first : ¬ (s.head? = some '#' ∨ s = []) := by
    have head := isPermission_head rule
    rintro (remark | rfl)
    · simp [remark] at head
    · simp at head
  rw [readName, if_neg first, if_pos ⟨by rw [custom]; rfl, rule⟩]

theorem readName_dscp (built : build.pcpSadscp = true) (rule : isDscp s = true) (linenum : Nat)
    (c : Config) :
    readName build memory fname linenum s c =
      (readLearnDscpLine (memory.dscp linenum) s).map fun (ret, v) =>
        if ret ≥ 0 then { c with dscpValuesList := c.dscpValuesList ++ [v] }
        else c.complain (parsingError fname linenum s) := by
  have head := isDscp_head rule
  have first : ¬ (s.head? = some '#' ∨ s = []) := by
    rintro (remark | rfl)
    · simp [remark] at head
    · simp at head
  have second : ¬ ((!build.useCustomPermMechanism) = true ∧ isPermission s = true) := by
    rintro ⟨_, permission⟩
    have other := isPermission_head permission
    simp [head] at other
  rw [readName, if_neg first, if_neg second, if_pos ⟨built, rule⟩]

/-- What a line does. -/
def Entry.applied (fname : CString) (linenum : Nat) (c : Config) : Entry → Config
  | .option _ _ _ _ value _ id => c.add id value
  | .permission _ _ _ perm => { c with upnppermlist := c.upnppermlist ++ [perm] }
  | .dscp _ _ _ v => { c with dscpValuesList := c.dscpValuesList ++ [v] }
  | .comment _ _ | .blank _ => c
  | .wrong _ text _ => c.complain (parsingError fname linenum text)
  | .unknown _ name _ _ value _ => c.complain (invalidOption fname linenum name value)

theorem readLine_entry (written : e.Written build memory.shifted) (fits : e.Fits) (linenum : Nat)
    (c : Config) :
    readLine build memory fname linenum e.text c = some (e.applied fname linenum c) := by
  rw [readLine, Entry.text, trimEnd_line fits.plain.1]
  cases e with
  | comment lead remark =>
    have shown : trim (lead ++ '#' :: remark) = '#' :: remark.rdropWhile isspace := by
      rw [trim, dropWhile_white written, List.dropWhile_cons_of_neg (by decide)]
      exact rdropWhile_stop (by decide) [] remark
    rw [Entry.line, shown, readName, if_pos (.inl rfl)]
    rfl
  | blank white =>
    have empty : trim white = [] := by
      rw [trim, List.dropWhile_eq_nil_iff.mpr written]
      rfl
    rw [Entry.line, empty, readName, if_pos (.inr rfl)]
    rfl
  | option lead name gap gap' value trail id =>
    obtain ⟨white, space, space', white', found, trimmed⟩ := written
    have plain := plain_of_optionId found
    simp only [plainName, Bool.and_eq_true, List.all_eq_true, decide_eq_true_eq,
      Bool.not_eq_true'] at plain
    obtain ⟨⟨⟨filled, _⟩, visible⟩, _⟩ := plain
    have first : name.dropWhile isspace = name := by
      rw [List.dropWhile_eq_self_iff]
      intro long
      rw [(visible _ (List.getElem_mem long)).1]
      decide
    have last : name.rdropWhile isspace = name := by
      rw [List.rdropWhile_eq_self_iff]
      intro nonempty
      rw [(visible _ (List.getLast_mem nonempty)).1]
      decide
    have absent : '=' ∉ name := fun member => (visible '=' member).2 rfl
    have ordinary : Ordinary build
        (name ++ gap ++ '=' :: (gap' ++ value ++ trail).rdropWhile isspace) := by
      rw [List.append_assoc]
      exact ordinary_option found _
    rw [Entry.line, trim_option white first filled, readName_ordinary ordinary,
      readOption_line space space' white' last absent trimmed, found]
    rfl
  | unknown lead name gap gap' value trail =>
    obtain ⟨space, space', white', white, ends, filled, absent, other, trimmed, ordinary⟩ := written
    obtain ⟨first, last⟩ := ends.ends
    rw [trim_option white first filled] at ordinary
    rw [Entry.line, trim_option white first filled, readName_ordinary ordinary,
      readOption_line space space' white' last absent trimmed, other]
    rfl
  | permission lead rule trail perm =>
    obtain ⟨white, white', trimmed, custom, begins, t, said⟩ := written
    rw [Entry.line, trimmed_white white white' trimmed, readName_permission custom begins,
      readPermissionLine, PermissionLines.written_read said]
    rfl
  | dscp lead rule trail v =>
    obtain ⟨white, white', trimmed, built, begins, taken⟩ := written
    rw [Entry.line, trimmed_white white white' trimmed, readName_dscp built begins, taken]
    rfl
  | wrong lead text trail =>
    obtain ⟨white, white', trimmed, ⟨ordinary, absent⟩ | ⟨custom, begins, refused⟩ |
      ⟨built, begins, refused⟩⟩ := written
    · rw [Entry.line, trimmed_white white white' trimmed, readName_ordinary ordinary,
        readOption_none absent]
      rfl
    · obtain ⟨w, returned⟩ := refused (memory.perm linenum)
      rw [Entry.line, trimmed_white white white' trimmed, readName_permission custom begins,
        returned]
      rfl
    · obtain ⟨w, returned⟩ := refused (memory.dscp linenum)
      rw [Entry.line, trimmed_white white white' trimmed, readName_dscp built begins, returned]
      rfl

end entries

section memory
variable {c : Config} {value : CString} {id : OptionId}

/-- The options as the daemon uses them, once the offsets have become pointers. -/
def Config.options (c : Config) : List (OptionId × CString) :=
  c.aryOptions.map fun o => (o.id, c.value o)

/-- Every value ends inside the block. -/
def Config.Closed (c : Config) : Prop :=
  ∀ o ∈ c.aryOptions, o.value ≤ c.stringRepo.length ∧ '\x00' ∈ c.stringRepo.drop o.value

theorem closed_empty : Config.empty.Closed := fun _ member => nomatch member

theorem closed_add (closed : c.Closed) (id : OptionId) (value : CString) :
    (c.add id value).Closed := by
  intro o member
  rcases List.mem_append.mp member with earlier | last
  · obtain ⟨inside, nul⟩ := closed o earlier
    refine ⟨?_, ?_⟩
    · simp only [Config.add, List.length_append]
      omega
    · rw [Config.add, List.drop_append_of_le_length inside]
      exact List.mem_append_left _ nul
  · obtain rfl := List.mem_singleton.mp last
    simp [Config.add]

theorem untilNul_ended {s : List Char} (nul : '\x00' ∈ s) (t : List Char) :
    untilNul (s ++ t) = untilNul s := by
  obtain ⟨front, back, rfl, absent⟩ := List.eq_append_cons_of_mem nul
  rw [untilNul, untilNul, List.append_assoc, takeWhile_ne_append absent,
    takeWhile_ne_append absent]
  simp

/-- Growing the block leaves the earlier values where they are. -/
theorem options_add (closed : c.Closed) (plain : '\x00' ∉ value) :
    (c.add id value).options = c.options ++ [(id, value)] := by
  unfold Config.options
  rw [Config.add, List.map_append]
  congr 1
  · apply List.map_congr_left
    intro o member
    obtain ⟨inside, nul⟩ := closed o member
    rw [Config.value, Config.value, List.drop_append_of_le_length inside, untilNul_ended nul]
  · simp only [List.map_cons, List.map_nil, Config.value, List.drop_left]
    rw [untilNul, takeWhile_ne_append plain]
    simp

end memory

section run
variable {build : Build} {memory : Memory} {fname : CString} {e : Entry} {entries : List Entry}
  {c : Config}

theorem value_plain (fits : e.Fits) {setting : OptionId × CString}
    (set : e.setting = some setting) : '\x00' ∉ setting.2 := by
  cases e with
  | option lead name gap gap' value trail id =>
    obtain rfl := Option.some.inj set
    intro nul
    apply fits.plain.2
    simp [Entry.line, nul]
  | _ => cases set

/-- What a line adds to what has been read. -/
structure Grown (fname : CString) (e : Entry) (linenum : Nat) (c c' : Config) : Prop where
  closed : c'.Closed
  options : c'.options = c.options ++ e.setting.toList
  perms : c'.upnppermlist = c.upnppermlist ++ e.perm.toList
  dscps : c'.dscpValuesList = c.dscpValuesList ++ e.dscpValues.toList
  stderr : c'.stderr = c.stderr ++ (e.message fname linenum).toList

theorem applied_grown (fits : e.Fits) (closed : c.Closed) (linenum : Nat) :
    Grown fname e linenum c (e.applied fname linenum c) := by
  cases e with
  | option lead name gap gap' value trail id =>
    have plain := value_plain fits rfl
    exact
      { closed := closed_add closed id value
        options := options_add closed plain
        perms := (List.append_nil _).symm
        dscps := (List.append_nil _).symm
        stderr := (List.append_nil _).symm }
  | permission lead rule trail perm =>
    exact
      { closed := closed
        options := (List.append_nil _).symm
        perms := rfl
        dscps := (List.append_nil _).symm
        stderr := (List.append_nil _).symm }
  | dscp lead rule trail v =>
    exact
      { closed := closed
        options := (List.append_nil _).symm
        perms := (List.append_nil _).symm
        dscps := rfl
        stderr := (List.append_nil _).symm }
  | comment | blank =>
    exact
      { closed := closed
        options := (List.append_nil _).symm
        perms := (List.append_nil _).symm
        dscps := (List.append_nil _).symm
        stderr := (List.append_nil _).symm }
  | wrong | unknown =>
    exact
      { closed := closed
        options := (List.append_nil _).symm
        perms := (List.append_nil _).symm
        dscps := (List.append_nil _).symm
        stderr := rfl }

/-- The complaints about lines of which the first has the number `linenum`. -/
def messages (fname : CString) (entries : List Entry) (linenum : Nat) : List CString :=
  (entries.zipIdx linenum).filterMap fun numbered => numbered.1.message fname numbered.2

/-- What the lines say, added to what has been read before them. -/
structure Said (fname : CString) (entries : List Entry) (linenum : Nat) (c c' : Config) : Prop where
  options : c'.options = c.options ++ entries.filterMap Entry.setting
  perms : c'.upnppermlist = c.upnppermlist ++ entries.filterMap Entry.perm
  dscps : c'.dscpValuesList = c.dscpValuesList ++ entries.filterMap Entry.dscpValues
  stderr : c'.stderr = c.stderr ++ messages fname entries (linenum + 1)

theorem filterMap_cons_toList {α β : Type*} (f : α → Option β) (a : α) (l : List α) :
    (a :: l).filterMap f = (f a).toList ++ l.filterMap f := by
  cases same : f a with
  | none => rw [List.filterMap_cons_none same, Option.toList_none, List.nil_append]
  | some b => rw [List.filterMap_cons_some same, Option.toList_some, List.singleton_append]

theorem messages_cons (fname : CString) (e : Entry) (entries : List Entry) (linenum : Nat) :
    messages fname (e :: entries) linenum =
      (e.message fname linenum).toList ++ messages fname entries (linenum + 1) := by
  rw [messages, List.zipIdx_cons, filterMap_cons_toList]
  rfl

/-- The lines are read one after the other, each with its number. -/
theorem readLines_said (written : ∀ e ∈ entries, e.Written build memory.shifted)
    (fits : ∀ e ∈ entries, e.Fits) (closed : c.Closed) (linenum : Nat) :
    ∃ c', readLines build memory fname linenum (entries.map Entry.text) c = some c' ∧
      Said fname entries linenum c c' := by
  induction entries generalizing c linenum with
  | nil =>
    refine ⟨c, rfl, ?_, ?_, ?_, ?_⟩
    all_goals exact (List.append_nil _).symm
  | cons e entries ih =>
    obtain ⟨first, others⟩ := List.forall_mem_cons.mp written
    obtain ⟨fit, fits⟩ := List.forall_mem_cons.mp fits
    have grown : Grown fname e (linenum + 1) c _ := applied_grown fit closed (linenum + 1)
    obtain ⟨c', read, said⟩ := ih others fits grown.closed (linenum + 1)
    refine ⟨c', ?_, ?_, ?_, ?_, ?_⟩
    · rw [List.map_cons, readLines, readLine_entry first fit, Option.bind_some, read]
    · rw [said.options, grown.options, List.append_assoc, filterMap_cons_toList]
    · rw [said.perms, grown.perms, List.append_assoc, filterMap_cons_toList]
    · rw [said.dscps, grown.dscps, List.append_assoc, filterMap_cons_toList]
    · rw [said.stderr, grown.stderr, List.append_assoc, messages_cons]

theorem fgetsLines_entries (fits : ∀ e ∈ entries, e.Fits) :
    fgetsLines 1024 (entries.flatMap Entry.text) = entries.map Entry.text := by
  have ended : ∀ e : Entry, Ended e.text := fun e => ⟨e.line, rfl⟩
  rw [LeaseFile.fgetsLines_flatMap 1024 ended]
  induction entries with
  | nil => rfl
  | cons e entries ih =>
    obtain ⟨fit, fits⟩ := List.forall_mem_cons.mp fits
    rw [List.flatMap_cons, ih fits, Entry.text, fgetsLines_line fit.short fit.plain]
    rfl

def denied : UpnpPerm :=
  { type := .deny, eportMin := 80, eportMax := 80, address := Inet.ofBytes 10 0 0 1
    mask := BitVec.allOnes 32, iportMin := 80, iportMax := 80 }

/-- A port, a rule, a name that no option has, a line without equals sign and another option. -/
def closedFile : List Entry :=
  [.option [' '] "port".toList [' '] [' '] "5555".toList ['\t'] .port,
   .comment [] " hosts".toList,
   .permission [] "deny 80 10.0.0.1 80".toList [' '] denied,
   .unknown [] "prot".toList [] [] "80".toList [],
   .wrong [] "enable_upnp yes".toList [],
   .option [] "enable_upnp".toList [] [] "yes".toList [] .enable]

def plainBuild : Build :=
  { useSdn := false, enableIpv6 := false, enableHttps := false, enableManufacturerInfo := false
    useNetfilter := true, enableNatpmp := true, enablePcp := true, usePf := false
    pfEnableFilterRules := false, enableLeasefile := true, igdV2 := true
    useCustomPermMechanism := false, pcpSadscp := true }

def uninitialised : Memory :=
  { perm := fun _ => denied
    dscp := fun _ =>
      { appName := .initial, appNameLen := 0, delay := 0, loss := 0, jitter := 0, dscpValue := 0 }
    shifted := fun _ => 0 }

theorem denied_written :
    PermissionLines.Written "deny 80 10.0.0.1 80".toList
      ⟨.deny, [' '], .port "80".toList, ' ', "10.0.0.1".toList, none, .port "80".toList, []⟩
      denied := by
  have white : White [] ∧ White [' '] :=
    ⟨List.all_eq_true.mp (by decide), List.all_eq_true.mp (by decide)⟩
  have decimal : Decimal "80".toList := ⟨by decide, List.all_eq_true.mp (by decide)⟩
  have opening : PermissionLines.Opening "deny 80 10.0.0.1 80".toList .deny [' ']
      "80 10.0.0.1 80".toList := by
    refine ⟨[], white.1, white.2, ?_, by decide⟩
    intro c first
    obtain rfl : '8' = c := Option.some.inj first
    rfl
  have eports := @PortsAt.port (starts isspace) "80".toList " 10.0.0.1 80".toList decimal
    (by decide)
  have net := @NetAt.host "10.0.0.1".toList " 80".toList
    ⟨by decide, List.all_eq_true.mp (by decide)⟩ (by decide)
  have iports := @PortsAt.port (fun q => starts isspace q || q = []) "80".toList [] decimal
    (by decide)
  have eighty : digitsValue "80".toList = (80 : UInt16).toNat := by decide
  have text : Inet.inetNtoa denied.address = "10.0.0.1".toList := by decide
  have address : Inet.inetAton "10.0.0.1".toList = some denied.address := by
    rw [← text]
    exact Inet.inetAton_inetNtoa _
  exact
    { tokens := ⟨_, [], _, ' ', [], _, opening, eports, white.1, net, white.1, iports⟩
      type := rfl
      gap := List.cons_ne_nil _ _
      eports := .port decimal eighty
      behind := by decide
      address := address
      mask := .host
      iports := .port decimal eighty
      rest := white.1 }

end run

end OptionsFile

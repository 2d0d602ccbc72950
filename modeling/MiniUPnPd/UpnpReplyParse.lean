import MiniUPnPd.MinixmlText

/-!
The list of names and values that is read from a SOAP body, through the callbacks of the XML
parser. Allocations succeed.
-/
namespace UpnpReplyParse
open CText Minixml Scan Scan.Parse

structure NameValue where
  name : CString
  value : CString
  deriving DecidableEq

/-- `portListing` has its length with it; `cdata` points into the buffer. -/
structure NameValueParserData where
  lHead : List NameValue
  curelt : CString
  portListing : Option (List Char)
  topelt : Bool
  cdata : Option (List Char)
  cdatalen : Nat
  deriving DecidableEq

def NameValueParserData.cleared : NameValueParserData :=
  { lHead := [], curelt := [], portListing := none, topelt := false, cdata := none, cdatalen := 0 }

def newPortListing : CString := "NewPortListing".toList

def nameValueParserStartElt (data : NameValueParserData) (name : List Char) (l : Nat) :
    NameValueParserData :=
  { data with topelt := true, curelt := untilNul (name.take (min l 63)), cdata := none, cdatalen := 0 }

/-- The value is cut to 127 characters, and an element without text has an empty one. -/
def cdataValue (data : NameValueParserData) : CString :=
  match data.cdata with
  | some cdata => untilNul (cdata.take (min data.cdatalen 127))
  | none => []

/-- The name in the end tag is not looked at. -/
def nameValueParserEndElt (data : NameValueParserData) : NameValueParserData :=
  if data.topelt then
    let lHead :=
      if data.curelt ≠ newPortListing then
        { name := data.curelt.take 63, value := cdataValue data } :: data.lHead
      else data.lHead
    { data with lHead, cdata := none, cdatalen := 0, topelt := false }
  else data

def nameValueParserGetData (data : NameValueParserData) (datas : List Char) (l : Nat) :
    NameValueParserData :=
  if data.curelt = newPortListing then { data with portListing := some (datas.take l) }
  else { data with cdata := some datas, cdatalen := l }

/-- No callback is set for attributes. -/
def parser : Xmlparser :=
  { starteltfunc := true, endeltfunc := true, datafunc := true, attfunc := false }

def callback (data : NameValueParserData) : Call → NameValueParserData
  | .starteltfunc name len => nameValueParserStartElt data name len
  | .endeltfunc _ _ => nameValueParserEndElt data
  | .datafunc datas len => nameValueParserGetData data datas len
  | .attfunc _ _ _ _ => data

def parseNameValue (buffer : List Char) : NameValueParserData :=
  (parsexml parser buffer).calls.foldl callback .cleared

def getValueFromNameValueList (pdata : NameValueParserData) (name : CString) : Option CString :=
  (pdata.lHead.find? fun nv => nv.name = name).map NameValue.value

/-- Whatever the calls after `r` do to `data'`, the calls after `s` do to `data`. The rounds
    that are given to the parser are enough for what is left. -/
def Leads (s : List Char) (data : NameValueParserData) (r : List Char)
    (data' : NameValueParserData) : Prop :=
  ∀ fuel, s.length ≤ fuel → ∃ fuel', r.length ≤ fuel' ∧
    (parseelt parser fuel s).calls.foldl callback data =
      (parseelt parser fuel' r).calls.foldl callback data'

section leads
variable {s r t : List Char} {data data' data'' : NameValueParserData}

theorem leads_refl : Leads s data s data := by
  intro fuel enough
  exact ⟨fuel, enough, rfl⟩

theorem leads_trans (first : Leads s data r data') (second : Leads r data' t data'') :
    Leads s data t data'' := by
  intro fuel enough
  obtain ⟨fuel', enough', same⟩ := first fuel enough
  obtain ⟨fuel'', enough'', same'⟩ := second fuel' enough'
  exact ⟨fuel'', enough'', same.trans same'⟩

theorem leads_round {calls : List Call} (long : 2 ≤ s.length)
    (read : eltRound parser s = { calls, result := .ok r }) :
    Leads s data r (calls.foldl callback data) := by
  intro fuel enough
  cases fuel with
  | zero => omega
  | succ fuel =>
    have moved := (eltRound_ensures (inside_handles parser s) (List.suffix_refl s)).reached r (by rw [read])
    have shorter := moved.length_le
    rw [List.length_tail] at shorter
    refine ⟨fuel, by omega, ?_⟩
    rw [parseelt, if_pos long, bind_of_ok read, List.foldl_append]

/-- What is left at the end is too short for a call. -/
theorem leads_parsed (run : Leads s .cleared r data) (short : r.length < 2) :
    parseNameValue s = data := by
  obtain ⟨fuel, -, same⟩ := run s.length le_rfl
  have silent : (parseelt parser fuel r).calls = [] := by
    cases fuel <;> simp [parseelt, Nat.not_le.mpr short, ended]
  rw [parseNameValue, parsexml, same, silent, List.foldl_nil]

/-- Characters outside tags are passed. -/
theorem leads_skip {g : List Char} (noTag : '<' ∉ g) : Leads (g ++ r) data r data := by
  induction g with
  | nil => exact leads_refl
  | cons c g ih =>
    have other : c ≠ '<' := by
      rintro rfl
      exact noTag List.mem_cons_self
    have rest := ih fun member => noTag (List.mem_cons_of_mem c member)
    by_cases long : 2 ≤ (c :: g ++ r).length
    · have read : eltRound parser (c :: g ++ r) = { calls := [], result := .ok (g ++ r) } := by
        have noComment : ¬ commentOpen.isPrefixOf (c :: g ++ r) = true := by
          rw [List.isPrefixOf_iff_prefix]
          rintro ⟨u, start⟩
          exact other (List.cons.inj start).1.symm
        unfold eltRound
        rw [if_neg noComment]
        split
        · rename_i same
          exact absurd (List.cons.inj same).1 other
        · rfl
      exact leads_trans (leads_round long read) rest
    · have last : g ++ r = [] := by
        apply List.length_eq_zero_iff.mp
        simp only [List.cons_append, List.length_cons] at long
        omega
      obtain ⟨rfl, rfl⟩ := List.append_eq_nil_iff.mp last
      intro fuel enough
      refine ⟨0, le_rfl, ?_⟩
      cases fuel <;> simp [parseelt, ended]

end leads

end UpnpReplyParse

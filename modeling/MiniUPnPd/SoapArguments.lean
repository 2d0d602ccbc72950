import MiniUPnPd.Lib.FirstMatch
import MiniUPnPd.SoapBodies
import MiniUPnPd.UpnpSoap

/-!
What is found of the arguments of a SOAP body. An argument without text that is written with a
single tag is recorded only if it is the last.
-/
namespace SoapArguments
open FirstMatch Minixml SoapBodies UpnpReplyParse

/-- The handlers of the actions look their arguments up in the list that is left. -/
theorem getValue_handler (h : UpnpSoap.Upnphttp) (pdata : NameValueParserData)
    (args : h.args = pdata.lHead.map fun nv => (nv.name, nv.value)) (name : String) :
    UpnpSoap.getValueFromNameValueList h name = getValueFromNameValueList pdata name.toList := by
  rw [UpnpSoap.getValueFromNameValueList, getValueFromNameValueList, args, List.find?_map,
    Option.map_map]
  rfl

theorem getValue_entries {pdata : NameValueParserData} {args : List Argument}
    (entries : pdata.lHead = args.map Argument.entry) (x : List Char) :
    getValueFromNameValueList pdata x =
      valueOf (fun a : Argument => a.name.key) (fun a => a.value.take 127) x args := by
  rw [getValueFromNameValueList, entries, List.find?_map, valueOf, Option.map_map]
  rfl

/-- The arguments that are recorded, the last first. -/
theorem getValue_parsed (d : Body) {init : List Argument} {last : Argument}
    (whole : d.args = init ++ [last]) (names : ∀ a ∈ d.args, a.name.text ≠ newPortListing)
    (x : List Char) :
    getValueFromNameValueList (parseNameValue d.text) x =
      valueOf (fun a : Argument => a.name.key) (fun a => a.value.take 127) x
        ([last] ++ init.reverse.filter fun a => !a.short) := by
  apply getValue_entries
  rw [parsed_entries d whole names, List.filter_reverse, ← List.map_reverse]
  rfl

/-- With two tags each, all arguments are recorded. -/
theorem getValue_full (d : Body) (nonempty : d.args ≠ []) (full : ∀ a ∈ d.args, a.short = false)
    (names : ∀ a ∈ d.args, a.name.text ≠ newPortListing) (x : List Char) :
    getValueFromNameValueList (parseNameValue d.text) x =
      valueOf (fun a : Argument => a.name.key) (fun a => a.value.take 127) x d.args.reverse := by
  obtain ⟨init, last, whole⟩ := (List.eq_nil_or_concat' d.args).resolve_left nonempty
  have kept : (init.reverse.filter fun a => !a.short) = init.reverse := by
    apply List.filter_eq_self.mpr
    intro a member
    simp [full a (by simp [whole, List.mem_reverse.mp member])]
  rw [getValue_parsed d whole names, kept, whole, List.reverse_append]
  rfl

theorem arguments_found (d : Body) (nonempty : d.args ≠ [])
    (full : ∀ a ∈ d.args, a.short = false)
    (distinct : (d.args.map fun a => a.name.text).Nodup)
    (names : ∀ a ∈ d.args, a.name.text.length ≤ 63 ∧ a.name.text ≠ newPortListing ∧
      a.name.text ≠ d.action.text)
    (values : ∀ a ∈ d.args, a.value.length ≤ 127) :
    (∀ a ∈ d.args,
        getValueFromNameValueList (parseNameValue d.text) a.name.text = some a.value) ∧
      ∀ x, (∀ a ∈ d.args, a.name.text ≠ x) → x ≠ d.action.text →
        getValueFromNameValueList (parseNameValue d.text) x = none := by
  have found := getValue_full d nonempty full fun a member => (names a member).2.1
  have key : ∀ a ∈ d.args, a.name.key = a.name.text := fun a member =>
    List.take_of_length_le (names a member).1
  constructor
  · intro a member
    obtain ⟨u, w, whole⟩ := List.append_of_mem (List.mem_reverse.mpr member)
    have apart : ∀ c ∈ u, c.name.key ≠ a.name.text := by
      intro c earlier
      have inside : c ∈ d.args := by
        rw [← List.mem_reverse, whole]
        exact List.mem_append_left _ earlier
      have once : ((u ++ a :: w).map fun a => a.name.text).Nodup := by
        rw [← whole, List.map_reverse, List.nodup_reverse]
        exact distinct
      rw [List.map_append, List.map_cons, List.nodup_append] at once
      rw [key c inside]
      exact once.2.2 _ (List.mem_map_of_mem earlier) _ List.mem_cons_self
    rw [found, whole, valueOf_absent _ _ apart]
    simp [valueOf, key a member, List.take_of_length_le (values a member)]
  · intro x other _
    rw [found, valueOf]
    have none : d.args.reverse.find? (fun a => a.name.key = x) = none := by
      apply List.find?_eq_none.mpr
      intro a member
      have inside := List.mem_reverse.mp member
      simpa [key a inside] using other a inside
    rw [none]
    rfl

/-- No attributes and no white space. -/
def bare : Markup := { ns := none, atts := [], last := ⟨[], by simp [MinixmlText.White]⟩ }

def noSpaces : Spaces := ⟨[], by simp [MinixmlText.White]⟩

def level : Level := { markup := bare, inner := noSpaces, lastEnd := noSpaces, behind := noSpaces }

def nameN : Name := ⟨['N'], List.cons_ne_nil _ _, List.all_eq_true.mp (by decide)⟩

def nameM : Name := ⟨['M'], List.cons_ne_nil _ _, List.all_eq_true.mp (by decide)⟩

def nameA : Name := ⟨['A'], List.cons_ne_nil _ _, List.all_eq_true.mp (by decide)⟩

def plainArgument (name : Name) (value : List Char) (textual : '<' ∉ value ∧ '\x00' ∉ value) :
    Argument :=
  { name, value, textual, markup := bare, short := false, shortEmpty := by simp
    lastEnd := noSpaces, behind := noSpaces }

/-- An action with the argument N, which is empty, and then M with the text 1. -/
def twoArguments : Body :=
  { envelope := level, body := level, level := level, action := nameA
    args := [plainArgument nameN [] (by decide), plainArgument nameM ['1'] (by decide)] }

theorem twoArguments_found :
    (∀ a ∈ twoArguments.args,
        getValueFromNameValueList (parseNameValue twoArguments.text) a.name.text = some a.value) ∧
      ∀ x, (∀ a ∈ twoArguments.args, a.name.text ≠ x) → x ≠ twoArguments.action.text →
        getValueFromNameValueList (parseNameValue twoArguments.text) x = none :=
  arguments_found twoArguments (List.cons_ne_nil _ _)
    (List.forall_mem_cons.mpr ⟨rfl, List.forall_mem_singleton.mpr rfl⟩) (by decide)
    (List.forall_mem_cons.mpr ⟨by decide, List.forall_mem_singleton.mpr (by decide)⟩)
    (List.forall_mem_cons.mpr ⟨by decide, List.forall_mem_singleton.mpr (by decide)⟩)

/-- The same argument, or an empty one in a single tag. -/
def Respelled (a b : Argument) : Prop := b = a ∨ (a.value = [] ∧ b.short = true ∧ b.name = a.name)

/-- The name of `a`, as far as it is recorded, is that of an argument behind, or that of one
    in front with two tags and the last such argument is empty. -/
def Stands (before : List Argument) (a : Argument) (behind : List Argument) : Prop :=
  (∃ b ∈ behind, b.name.key = a.name.key) ∨
    ∃ b, (before.filter fun b => !b.short).reverse.find? (fun b => b.name.key = a.name.key) =
      some b ∧ b.value = []

/-- The same, of the arguments from the last on. -/
theorem stands_iff {before behind : List Argument} {a last : Argument} :
    Stands before a (behind ++ [last]) ↔
      (∃ c ∈ [last] ++ behind.reverse, c.name.key = a.name.key) ∨
        valueOf (fun a : Argument => a.name.key) (fun a => a.value.take 127) a.name.key
          (before.reverse.filter fun a => !a.short) = some [] := by
  have empty (b : Argument) : b.value.take 127 = [] ↔ b.value = [] := by
    simp [List.take_eq_nil_iff]
  unfold Stands
  rw [valueOf, List.filter_reverse, Option.map_eq_some_iff]
  simp only [empty, List.mem_append, List.mem_reverse, or_comm]

theorem respelled_entry {a b : Argument} (same : Respelled a b) :
    b.name = a.name ∧ b.value = a.value := by
  rcases same with rfl | ⟨empty, short, name⟩
  · exact ⟨rfl, rfl⟩
  · exact ⟨name, by rw [empty, b.shortEmpty short]⟩

theorem respelled_mem {args args' : List Argument} (respelled : List.Forall₂ Respelled args args')
    {b : Argument} (member : b ∈ args') : ∃ a ∈ args, Respelled a b := by
  induction respelled with
  | nil => simp at member
  | cons same rest ih =>
    rcases List.mem_cons.mp member with rfl | later
    · exact ⟨_, List.mem_cons_self, same⟩
    · obtain ⟨a, inside, respells⟩ := ih later
      exact ⟨a, List.mem_cons_of_mem _ inside, respells⟩

theorem valueOf_respelled {args args' : List Argument} (respelled : List.Forall₂ Respelled args args')
    (x : List Char) :
    valueOf (fun a : Argument => a.name.key) (fun a => a.value.take 127) x args.reverse =
      valueOf (fun a : Argument => a.name.key) (fun a => a.value.take 127) x args'.reverse := by
  have entries : args.map Argument.entry = args'.map Argument.entry := by
    induction respelled with
    | nil => rfl
    | cons same rest ih =>
      obtain ⟨name, value⟩ := respelled_entry same
      rw [List.map_cons, List.map_cons, ih, Argument.entry, Argument.entry, name, value]
  have read (l : List Argument) :
      valueOf (fun a : Argument => a.name.key) (fun a => a.value.take 127) x l =
        ((l.map Argument.entry).find? fun nv => nv.name = x).map NameValue.value := by
    rw [List.find?_map, valueOf, Option.map_map]
    rfl
  rw [read, read, List.map_reverse, List.map_reverse, entries]

theorem spellings_agree_iff (d : Body) (args' : List Argument)
    (respelled : List.Forall₂ Respelled d.args args') (full : ∀ a ∈ d.args, a.short = false)
    (names : ∀ a ∈ d.args, a.name.text ≠ newPortListing) :
    (∀ x, getValueFromNameValueList (parseNameValue { d with args := args' }.text) x =
        getValueFromNameValueList (parseNameValue d.text) x) ↔
      ∀ before a behind, args' = before ++ a :: behind → a.short = true → behind ≠ [] →
        Stands before a behind := by
  rcases List.eq_nil_or_concat' args' with rfl | ⟨init, last, rfl⟩
  · have none : d.args = [] := List.forall₂_nil_right_iff.mp respelled
    have same : { d with args := [] } = d := by rw [← none]
    simp [same]
  · have nonempty : d.args ≠ [] := by
      intro none
      rw [none] at respelled
      simp at respelled
    have names' : ∀ a ∈ init ++ [last], a.name.text ≠ newPortListing := by
      intro b member
      obtain ⟨a, inside, same⟩ := respelled_mem respelled member
      rw [(respelled_entry same).1]
      exact names a inside
    have dropped : ∀ a ∈ init.reverse, (!a.short) = false → a.value.take 127 = [] := by
      intro a _ short
      rw [a.shortEmpty (by simpa using short), List.take_nil]
    have read (x : List Char) :
        getValueFromNameValueList (parseNameValue { d with args := init ++ [last] }.text) x =
          valueOf (fun a : Argument => a.name.key) (fun a => a.value.take 127) x
            ([last] ++ init.reverse.filter fun a => !a.short) :=
      getValue_parsed { d with args := init ++ [last] } rfl names' x
    have read' (x : List Char) : getValueFromNameValueList (parseNameValue d.text) x =
        valueOf (fun a : Argument => a.name.key) (fun a => a.value.take 127) x
          ([last] ++ init.reverse) := by
      rw [getValue_full d nonempty full names, valueOf_respelled respelled, List.reverse_append]
      rfl
    have covered := valueOf_filter_iff (fun a : Argument => a.name.key)
      (fun a : Argument => a.value.take 127) (h := [last]) dropped
    simp only [read, read', covered]
    constructor
    · intro all before a behind whole short nonlast
      obtain ⟨behind, last', rfl⟩ := (List.eq_nil_or_concat' behind).resolve_left nonlast
      rw [← List.cons_append, ← List.append_assoc] at whole
      obtain ⟨rfl, rfl⟩ := List.append_singleton_inj.mp whole
      rw [stands_iff]
      exact all behind.reverse a before.reverse (by simp) (by simp [short])
    · intro all u a w whole out
      have parts : init = w.reverse ++ a :: u.reverse := by
        rw [← List.reverse_reverse init, whole]
        simp
      have stands := all w.reverse a (u.reverse ++ [last]) (by simp [parts]) (by simpa using out)
        (by simp)
      rw [stands_iff, List.reverse_reverse, List.reverse_reverse] at stands
      exact stands

def singleTag (name : Name) : Argument :=
  { plainArgument name [] (by decide) with short := true, shortEmpty := fun _ => rfl }

/-- The empty argument last. -/
def emptyLast : Body :=
  { twoArguments with
    args := [plainArgument nameM ['1'] (by decide), plainArgument nameN [] (by decide)] }

def spelledLast : List Argument := [plainArgument nameM ['1'] (by decide), singleTag nameN]

theorem spelledLast_stands (before : List Argument) (a : Argument) (behind : List Argument)
    (whole : spelledLast = before ++ a :: behind) (short : a.short = true) (nonlast : behind ≠ []) :
    Stands before a behind := by
  obtain ⟨b, rest, rfl⟩ := List.exists_cons_of_ne_nil nonlast
  match before with
  | [] =>
    obtain ⟨rfl, -⟩ := List.cons.inj whole
    exact absurd short (by decide)
  | [_] => simp [spelledLast] at whole
  | _ :: _ :: _ => simp [spelledLast] at whole

theorem spelledLast_agrees :
    getValueFromNameValueList (parseNameValue { emptyLast with args := spelledLast }.text) ['N'] =
      getValueFromNameValueList (parseNameValue emptyLast.text) ['N'] :=
  (spellings_agree_iff emptyLast spelledLast
    (.cons (.inl rfl) (.cons (.inr ⟨rfl, rfl, rfl⟩) .nil))
    (List.forall_mem_cons.mpr ⟨rfl, List.forall_mem_singleton.mpr rfl⟩)
    (List.forall_mem_cons.mpr ⟨by decide, List.forall_mem_singleton.mpr (by decide)⟩)).mpr
      spelledLast_stands ['N']

/-- An empty argument in a single tag in front of another is not found. -/
theorem single_tag_lost :
    ¬ ∀ (d : Body) (args' : List Argument), List.Forall₂ Respelled d.args args' →
      (∀ a ∈ d.args, a.short = false) → (d.args.map fun a => a.name.text).Nodup →
      (∀ a ∈ d.args, a.name.text ≠ newPortListing ∧ a.name.text ≠ d.action.text) →
      ∀ x, getValueFromNameValueList (parseNameValue { d with args := args' }.text) x =
        getValueFromNameValueList (parseNameValue d.text) x := by
  intro all
  have respelled : List.Forall₂ Respelled twoArguments.args
      [singleTag nameN, plainArgument nameM ['1'] (by decide)] :=
    .cons (.inr ⟨rfl, rfl, rfl⟩) (.cons (.inl rfl) .nil)
  have names : ∀ a ∈ twoArguments.args,
      a.name.text ≠ newPortListing ∧ a.name.text ≠ twoArguments.action.text :=
    List.forall_mem_cons.mpr ⟨by decide, List.forall_mem_singleton.mpr (by decide)⟩
  have full : ∀ a ∈ twoArguments.args, a.short = false :=
    List.forall_mem_cons.mpr ⟨rfl, List.forall_mem_singleton.mpr rfl⟩
  have same := all twoArguments _ respelled full (by decide) names ['N']
  have names' : ∀ a ∈ [singleTag nameN, plainArgument nameM ['1'] (by decide)],
      a.name.text ≠ newPortListing :=
    List.forall_mem_cons.mpr ⟨by decide, List.forall_mem_singleton.mpr (by decide)⟩
  rw [getValue_full twoArguments (List.cons_ne_nil _ _) full fun a member => (names a member).1,
    getValue_parsed { twoArguments with
      args := [singleTag nameN, plainArgument nameM ['1'] (by decide)] }
        (by rfl : _ = [singleTag nameN] ++ [_]) names'] at same
  exact absurd same (by decide)

end SoapArguments

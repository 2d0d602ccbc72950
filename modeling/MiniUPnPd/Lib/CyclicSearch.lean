import Mathlib.Data.List.Iterate

/-!
A search that goes around a cycle of places until a visit ends it, or until it is back at the
place where it began. It is a walk along the places of one round. Where the visits leave the
state alone, it comes to the first place that is permitted and usable, if there is one.
-/
namespace CyclicSearch
variable {Place State Result : Type*}

/-- A place that is refused, a place that is permitted but taken, or the end of the search. -/
inductive Visit (State Result : Type*) where
  | refused
  | taken (s : State)
  | done (r : Result)

inductive Ending (Place State Result : Type*) where
  | found (place : Place) (r : Result)
  /-- `any` tells whether one of the places was permitted. -/
  | exhausted (place : Place) (any : Bool) (s : State)

structure Outcome (Place State Result : Type*) where
  places : List Place
  ending : Ending Place State Result

def Outcome.after (place : Place) (o : Outcome Place State Result) : Outcome Place State Result :=
  { o with places := place :: o.places }

/-- The loop, with the places that it visits. Before the first round there is no first place. -/
inductive Searches (next : Place → Place) (visit : State → Place → Visit State Result) :
    (first : Option Place) → Place → (any : Bool) → State → Outcome Place State Result → Prop where
  | back {place : Place} {any : Bool} {s : State} :
      Searches next visit (some place) place any s
        { places := [], ending := .exhausted place any s }
  | refused {first : Option Place} {place : Place} {any : Bool} {s : State}
      {o : Outcome Place State Result} (ahead : first ≠ some place)
      (visited : visit s place = .refused)
      (rest : Searches next visit (some (first.getD place)) (next place) any s o) :
      Searches next visit first place any s (o.after place)
  | taken {first : Option Place} {place : Place} {any : Bool} {s s' : State}
      {o : Outcome Place State Result} (ahead : first ≠ some place)
      (visited : visit s place = .taken s')
      (rest : Searches next visit (some (first.getD place)) (next place) true s' o) :
      Searches next visit first place any s (o.after place)
  | done {first : Option Place} {place : Place} {any : Bool} {s : State} {r : Result}
      (ahead : first ≠ some place) (visited : visit s place = .done r) :
      Searches next visit first place any s { places := [place], ending := .found place r }

/-- The walk along a list of places, to be exhausted at `first`. -/
def along (visit : State → Place → Visit State Result) (first : Place) :
    List Place → (any : Bool) → State → Outcome Place State Result
  | [], any, s => { places := [], ending := .exhausted first any s }
  | place :: rest, any, s =>
      match visit s place with
      | .refused => (along visit first rest any s).after place
      | .taken s' => (along visit first rest true s').after place
      | .done r => { places := [place], ending := .found place r }

variable {next : Place → Place} {visit : State → Place → Visit State Result}
  {first : Option Place} {start place : Place} {any : Bool} {s : State}
  {o o' : Outcome Place State Result}

theorem searches_unique (left : Searches next visit first place any s o)
    (right : Searches next visit first place any s o') : o = o' := by
  induction left generalizing o' with
  | back =>
    cases right with
    | back => rfl
    | refused ahead => exact absurd rfl ahead
    | taken ahead => exact absurd rfl ahead
    | done ahead => exact absurd rfl ahead
  | refused ahead visited rest ih =>
    cases right with
    | back => exact absurd rfl ahead
    | refused _ _ rest' => rw [ih rest']
    | taken _ visited' => simp [visited] at visited'
    | done _ visited' => simp [visited] at visited'
  | taken ahead visited rest ih =>
    cases right with
    | back => exact absurd rfl ahead
    | refused _ visited' => simp [visited] at visited'
    | taken _ visited' rest' =>
      obtain rfl := Visit.taken.inj (visited.symm.trans visited')
      rw [ih rest']
    | done _ visited' => simp [visited] at visited'
  | done ahead visited =>
    cases right with
    | back => exact absurd rfl ahead
    | refused _ visited' => simp [visited] at visited'
    | taken _ visited' => simp [visited] at visited'
    | done _ visited' =>
      obtain rfl := Visit.done.inj (visited.symm.trans visited')
      rfl

section round

/-- One round of the loop, whatever comes after it. -/
theorem searches_round {rest : List Place} (ahead : first ≠ some place)
    (later : ∀ any s, Searches next visit (some (first.getD place)) (next place) any s
      (along visit start rest any s)) :
    Searches next visit first place any s (along visit start (place :: rest) any s) := by
  unfold along
  cases visited : visit s place with
  | refused => exact .refused ahead visited (later any s)
  | taken s' => exact .taken ahead visited (later true s')
  | done r => exact .done ahead visited

theorem searches_along {n : Nat} (back : next^[n] place = start)
    (apart : ∀ k < n, next^[k] place ≠ start) (any : Bool) (s : State) :
    Searches next visit (some start) place any s
      (along visit start (List.iterate next place n) any s) := by
  induction n generalizing place any s with
  | zero =>
    obtain rfl : place = start := back
    exact .back
  | succ n ih =>
    have ahead : some start ≠ some place := by
      intro same
      exact apart 0 (by omega) (Option.some.inj same).symm
    apply searches_round ahead
    apply ih
    · exact back
    · intro k below
      exact apart (k + 1) (by omega)

/-- From its first place the search is a walk along the places of one round. -/
theorem searches_whole {n : Nat} (back : next^[n + 1] start = start)
    (apart : ∀ k, 0 < k → k < n + 1 → next^[k] start ≠ start) (any : Bool) (s : State) :
    Searches next visit none start any s
      (along visit start (List.iterate next start (n + 1)) any s) := by
  apply searches_round (by simp)
  apply searches_along
  · exact back
  · intro k below
    exact apart (k + 1) (by omega) (by omega)

end round

theorem along_places (places : List Place) (any : Bool) (s : State) :
    (along visit start places any s).places <+: places := by
  induction places generalizing any s with
  | nil => exact List.prefix_refl []
  | cons place rest ih =>
    unfold along
    cases visit s place with
    | refused => exact List.cons_prefix_cons.mpr ⟨rfl, ih any s⟩
    | taken s' => exact List.cons_prefix_cons.mpr ⟨rfl, ih true s'⟩
    | done r => simp

section table
variable {permitted usable : Place → Bool} {result : Place → Result}

/-- The visits leave the state alone and tell whether the place is permitted and usable. -/
def Tells (visit : State → Place → Visit State Result) (s : State) (permitted usable : Place → Bool)
    (result : Place → Result) (places : List Place) : Prop :=
  ∀ place ∈ places, visit s place =
    if permitted place then if usable place then .done (result place) else .taken s else .refused

theorem along_found {places : List Place} (tells : Tells visit s permitted usable result places)
    (here : places.find? (fun p => permitted p && usable p) = some place) :
    (along visit start places any s).ending = .found place (result place) := by
  induction places generalizing any with
  | nil => simp at here
  | cons head rest ih =>
    have visited := tells head List.mem_cons_self
    have later : Tells visit s permitted usable result rest :=
      fun p inside => tells p (List.mem_cons_of_mem head inside)
    unfold along
    rw [visited]
    by_cases opened : permitted head = true
    · by_cases free : usable head = true
      · simp only [List.find?_cons, opened, free, Bool.and_self, Option.some.injEq] at here
        subst here
        simp only [opened, free, ↓reduceIte]
      · simp only [List.find?_cons, opened, free, Bool.and_false] at here
        simp only [opened, free, ↓reduceIte, Bool.false_eq_true]
        exact ih later here
    · simp only [List.find?_cons, opened, Bool.false_and] at here
      simp only [opened, ↓reduceIte, Bool.false_eq_true]
      exact ih later here

theorem along_exhausted {places : List Place} (any : Bool)
    (tells : Tells visit s permitted usable result places)
    (none : places.find? (fun p => permitted p && usable p) = none) :
    (along visit start places any s).ending =
      .exhausted start (any || places.any permitted) s := by
  induction places generalizing any with
  | nil => simp [along]
  | cons head rest ih =>
    have visited := tells head List.mem_cons_self
    have later : Tells visit s permitted usable result rest :=
      fun p inside => tells p (List.mem_cons_of_mem head inside)
    unfold along
    rw [visited]
    by_cases opened : permitted head = true
    · by_cases free : usable head = true
      · simp [opened, free] at none
      · simp only [List.find?_cons, opened, free, Bool.and_false] at none
        simp only [opened, free, ↓reduceIte, Bool.false_eq_true, List.any_cons]
        simpa [Outcome.after] using ih true later none
    · simp only [List.find?_cons, opened, Bool.false_and] at none
      simp only [opened, ↓reduceIte, Bool.false_eq_true, List.any_cons]
      simpa [Outcome.after] using ih any later none

end table

end CyclicSearch

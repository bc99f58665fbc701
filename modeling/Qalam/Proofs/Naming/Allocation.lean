/-
# Which name a request gets

The table of names is described by its requests alone. A name depends on the requests before it in
two ways that have little to do with each other. The base name comes from the spellings that needed
a new name so far, in both name spaces together: the oracle hears each of them once, in the order of
their first appearance, and the ones for which it has no usable proposal are numbered in this order.
The suffix comes from the names that were given so far in one name space only.

The table keeps neither the requests nor their order. The proof therefore says at each moment what
the requests so far make of the table, and that one more request keeps this true.
-/

import Qalam.Proofs.Naming.Requests

namespace Qalam.Naming

/-! ## The least free suffix -/

/-- A fresh name has the least suffix that is free. -/
theorem fresh_least (base : String) (taken : List String) :
    ∃ suffix, fresh base taken = suffixed base suffix ∧ suffixed base suffix ∉ taken ∧
      ∀ smaller < suffix, suffixed base smaller ∈ taken := by
  have free := fresh_not_mem base taken
  unfold fresh at free ⊢
  cases found : (List.range (taken.length + 1)).findSome? fun suffix =>
      if suffixed base suffix ∈ taken then none else some (suffixed base suffix) with
  | none =>
      -- The base itself is the first candidate, so it would be taken.
      have blocked := List.findSome?_eq_none_iff.mp found 0 (by simp)
      rw [found] at free
      split at blocked
      · exact absurd ‹_› free
      · cases blocked
  | some name =>
      obtain ⟨before, suffix, behind, split, chosen, skipped⟩ :=
        List.findSome?_eq_some_iff.mp found
      have sorted : (before ++ suffix :: behind).Pairwise (· < ·) := split ▸ List.pairwise_lt_range
      split at chosen
      · cases chosen
      · rename_i available
        cases chosen
        refine ⟨suffix, rfl, available, fun smaller less => ?_⟩
        have listed : smaller ∈ before := by
          have small : suffix < taken.length + 1 := List.mem_range.mp (by simp [split])
          have mem : smaller ∈ before ++ suffix :: behind :=
            split ▸ List.mem_range.mpr (Nat.lt_trans less small)
          rcases List.mem_append.mp mem with before | behind
          · exact before
          · have larger := (List.pairwise_cons.mp (List.pairwise_append.mp sorted).2.1).1
            rcases List.mem_cons.mp behind with rfl | behind
            · exact absurd less (Nat.lt_irrefl _)
            · exact absurd less (Nat.lt_asymm (larger _ behind))
        have blocked := skipped smaller listed
        split at blocked
        · assumption
        · cases blocked

/-- The search for a free name, which tries one name after the other, ends with a name. -/
inductive Seeks (base : String) (taken : List String) : String → Nat → String → Prop
  | found {name : String} {suffix : Nat} (free : name ∉ taken) :
      Seeks base taken name suffix name
  | next {name result : String} {suffix : Nat} (blocked : name ∈ taken)
      (further : Seeks base taken (base ++ "_" ++ toString (suffix + 1)) (suffix + 1) result) :
      Seeks base taken name suffix result

theorem Seeks.unique {base : String} {taken : List String} {name first second : String}
    {suffix : Nat} (seeks : Seeks base taken name suffix first)
    (seeks' : Seeks base taken name suffix second) : first = second := by
  induction seeks with
  | found free =>
      cases seeks' with
      | found => rfl
      | next blocked => exact absurd blocked free
  | next blocked _ ih =>
      cases seeks' with
      | found free => exact absurd blocked free
      | next _ further => exact ih further

/-- The search ends, whatever names are taken, and it finds the fresh name. -/
theorem seeks_iff {base : String} {taken : List String} {name : String} :
    Seeks base taken base 0 name ↔ name = fresh base taken := by
  obtain ⟨suffix, chosen, free, blocked⟩ := fresh_least base taken
  -- Counting down to the suffix that is free; every name before it is skipped.
  have further : ∀ left tried, tried + left = suffix →
      Seeks base taken (suffixed base tried) tried (suffixed base suffix) := by
    intro left
    induction left with
    | zero =>
        intro tried same
        obtain rfl : tried = suffix := same
        exact .found free
    | succ left ih =>
        intro tried sum
        exact .next (blocked tried (by omega)) (ih (tried + 1) (by omega))
  have ends : Seeks base taken base 0 (fresh base taken) := chosen ▸ further suffix 0 (by omega)
  constructor
  · exact fun seeks => seeks.unique ends
  · rintro rfl
    exact ends

/-! ## What the requests before it make of a request -/

/-- Whether an owner is a field, which tells its name space. -/
def Owner.isField : Owner → Bool
  | .entity _ => false
  | .field _ => true

/-- The requests that need a new name: the first one of each owner. -/
def firsts : List Request → List Request
  | [] => []
  | request :: others =>
    request :: (firsts others).filter fun later => later.owner ≠ request.owner

/-- The spellings that need a base name, in the order in which they come up. -/
def originals (requests : List Request) : List String :=
  ((firsts requests).map Request.spelling).eraseDups

/-- The usable proposals of an oracle that is asked for one spelling after the other, and its
memory in the end. -/
def Oracle.consult (oracle : Oracle) (memory : oracle.Memory) :
    List String → List (Option String) × oracle.Memory
  | [] => ([], memory)
  | spelling :: others =>
    let (proposal, memory) := oracle.ask memory spelling
    let (proposals, memory) := oracle.consult memory others
    (proposal.bind sanitize? :: proposals, memory)

/-- The proposals of an oracle that is asked for these spellings first of all. -/
def Oracle.proposals (oracle : Oracle) (spellings : List String) : List (Option String) :=
  (oracle.consult oracle.initial spellings).1

/-- The base name of one of the spellings that an oracle is asked for: its proposal, or else the
number of spellings without a proposal up to this one. -/
def baseName (oracle : Oracle) (spellings : List String) (spelling : String) : String :=
  let place := spellings.idxOf spelling
  let proposals := (oracle.proposals spellings).take (place + 1)
  (proposals[place]?.join).getD ("var_" ++ toString (proposals.count none))

/-- Requests with the names that they got, in order. -/
abbrev Run := List (Request × String)

/-- A name that is free for an owner: it was not given in the same name space, and no entity gets
a reserved word. -/
def Free (given : Run) (owner : Owner) (name : String) : Prop :=
  (∀ entry ∈ given, entry.1.owner.isField = owner.isField → entry.2 ≠ name) ∧
    (owner.isField = false → name ∉ reserved)

/-- The base name for a request after others. -/
def Run.base (oracle : Oracle) (given : Run) (request : Request) : String :=
  baseName oracle (originals (given.map Prod.fst ++ [request])) request.spelling

/-- The name for a request after others: the one that its owner has, or else the base name with
the least suffix that makes it free. -/
inductive Allocated (oracle : Oracle) (given : Run) (request : Request) : String → Prop
  | again {earlier : Request} {name : String}
      (known : given.find? (·.1.owner = request.owner) = some (earlier, name)) :
      Allocated oracle given request name
  | first (suffix : Nat) (unseen : ∀ entry ∈ given, entry.1.owner ≠ request.owner)
      (free : Free given request.owner (suffixed (given.base oracle request) suffix))
      (least : ∀ smaller < suffix,
        ¬ Free given request.owner (suffixed (given.base oracle request) smaller)) :
      Allocated oracle given request (suffixed (given.base oracle request) suffix)

/-- A run, after others were answered, in which every request has the name that the ones before
it make of it. -/
def Allocation (oracle : Oracle) (given run : Run) : Prop :=
  ∀ (before : Run) (request : Request) (name : String) (others : Run),
    run = before ++ (request, name) :: others → Allocated oracle (given ++ before) request name

/-! ## One request more -/

theorem firsts_concat (requests : List Request) (request : Request) :
    firsts (requests ++ [request]) = firsts requests ++
      if ∃ earlier ∈ requests, earlier.owner = request.owner then [] else [request] := by
  induction requests with
  | nil => rfl
  | cons first others ih =>
      rw [List.cons_append, firsts, ih, firsts, List.filter_append, List.cons_append]
      simp only [List.exists_mem_cons_iff]
      by_cases same : first.owner = request.owner
      · simp only [same, true_or, if_true]
        split <;> simp
      · have other : request.owner ≠ first.owner := fun h => same h.symm
        simp only [same, false_or]
        split <;> simp [other]

/-- The spellings after one more comes up. -/
def noted (spellings : List String) (spelling : String) : List String :=
  if spelling ∈ spellings then spellings else spellings ++ [spelling]

theorem eraseDups_concat (spellings : List String) (spelling : String) :
    (spellings ++ [spelling]).eraseDups = noted spellings.eraseDups spelling := by
  rw [List.eraseDups_append]
  simp only [noted, List.mem_eraseDups]
  split
  · rename_i mem
    simp [List.removeAll, mem]
  · rename_i mem
    simp [List.removeAll, mem, List.eraseDups_cons]

theorem originals_of_seen {requests : List Request} {request : Request}
    (seen : ∃ earlier ∈ requests, earlier.owner = request.owner) :
    originals (requests ++ [request]) = originals requests := by
  rw [originals, firsts_concat, if_pos seen, List.append_nil, originals]

theorem originals_of_unseen {requests : List Request} {request : Request}
    (unseen : ¬ ∃ earlier ∈ requests, earlier.owner = request.owner) :
    originals (requests ++ [request]) = noted (originals requests) request.spelling := by
  rw [originals, firsts_concat, if_neg unseen, List.map_append, List.map_singleton,
    eraseDups_concat, originals]

theorem Oracle.consult_concat (oracle : Oracle) (memory : oracle.Memory)
    (spellings : List String) (spelling : String) :
    oracle.consult memory (spellings ++ [spelling]) =
      let before := oracle.consult memory spellings
      let answer := oracle.ask before.2 spelling
      (before.1 ++ [answer.1.bind sanitize?], answer.2) := by
  induction spellings generalizing memory with
  | nil => rfl
  | cons first others ih => simp only [List.cons_append, Oracle.consult, ih]

theorem Oracle.length_consult (oracle : Oracle) (memory : oracle.Memory)
    (spellings : List String) :
    (oracle.consult memory spellings).1.length = spellings.length := by
  induction spellings generalizing memory with
  | nil => rfl
  | cons first others ih => simp [Oracle.consult, ih]

/-- A base name stays the same when more spellings come up. -/
theorem baseName_concat_of_mem (oracle : Oracle) {spellings : List String} {spelling : String}
    (mem : spelling ∈ spellings) (further : String) :
    baseName oracle (spellings ++ [further]) spelling = baseName oracle spellings spelling := by
  have place := List.idxOf_lt_length_of_mem mem
  have reach : spellings.idxOf spelling + 1 ≤ (oracle.proposals spellings).length := by
    rw [Oracle.proposals, Oracle.length_consult]
    exact place
  have prefixed : oracle.proposals (spellings ++ [further]) = oracle.proposals spellings ++
      [(oracle.ask (oracle.consult oracle.initial spellings).2 further).1.bind sanitize?] := by
    rw [Oracle.proposals, Oracle.consult_concat]
    rfl
  simp only [baseName, List.idxOf_append_of_mem mem, prefixed,
    List.take_append_of_le_length reach]

/-- The base name of a spelling that comes up last. -/
theorem baseName_concat_self (oracle : Oracle) {spellings : List String} {spelling : String}
    (new : spelling ∉ spellings) :
    baseName oracle (spellings ++ [spelling]) spelling =
      ((oracle.ask (oracle.consult oracle.initial spellings).2 spelling).1.bind sanitize?).getD
        ("var_" ++ toString ((oracle.proposals (spellings ++ [spelling])).count none)) := by
  have place : (spellings ++ [spelling]).idxOf spelling = spellings.length := by
    rw [List.idxOf_append_of_notMem new, List.idxOf_cons_self, Nat.add_zero]
  have size : (oracle.proposals (spellings ++ [spelling])).length = spellings.length + 1 := by
    rw [Oracle.proposals, Oracle.length_consult, List.length_append, List.length_singleton]
  have all : (oracle.proposals (spellings ++ [spelling])).take (spellings.length + 1) =
      oracle.proposals (spellings ++ [spelling]) := by
    rw [← size, List.take_length]
  have last : (oracle.proposals (spellings ++ [spelling]))[spellings.length]? = some
      ((oracle.ask (oracle.consult oracle.initial spellings).2 spelling).1.bind sanitize?) := by
    rw [Oracle.proposals, Oracle.consult_concat, List.getElem?_append_right]
    · simp [Oracle.length_consult]
    · simp [Oracle.length_consult]
  simp only [baseName, place, all, last, Option.join_some]

theorem free_concat {given : Run} {request : Request} {name : String} {owner : Owner}
    {other : String} :
    Free (given ++ [(request, name)]) owner other ↔
      Free given owner other ∧ (request.owner.isField = owner.isField → name ≠ other) := by
  simp only [Free, List.forall_mem_append, List.forall_mem_singleton]
  tauto

/-- Whoever has a name already makes no further name unavailable by getting it again. -/
theorem free_concat_of_mem {given : Run} {request earlier : Request} {name : String}
    (mem : (earlier, name) ∈ given) (same : earlier.owner = request.owner) {owner : Owner}
    {other : String} :
    Free (given ++ [(request, name)]) owner other ↔ Free given owner other := by
  rw [free_concat, and_iff_left_iff_imp]
  intro free space
  exact free.1 _ mem (same ▸ space)

theorem Allocated.unique {oracle : Oracle} {given : Run} {request : Request} {name other : String}
    (allocated : Allocated oracle given request name)
    (allocated' : Allocated oracle given request other) : name = other := by
  cases allocated with
  | again known =>
      cases allocated' with
      | again known' =>
          rw [known] at known'
          cases known'
          rfl
      | first suffix unseen =>
          exact absurd (by simpa using List.find?_some known)
            (unseen _ (List.mem_of_find?_eq_some known))
  | first suffix unseen free least =>
      cases allocated' with
      | again known =>
          exact absurd (by simpa using List.find?_some known)
            (unseen _ (List.mem_of_find?_eq_some known))
      | first suffix' _ free' least' =>
          obtain less | rfl | more := Nat.lt_trichotomy suffix suffix'
          · exact absurd free (least' suffix less)
          · rfl
          · exact absurd free' (least suffix' more)

theorem allocation_nil {oracle : Oracle} {given : Run} : Allocation oracle given [] := by
  intro before request name others split
  simp at split

theorem allocation_cons {oracle : Oracle} {given : Run} {request : Request} {name : String}
    {others : Run} :
    Allocation oracle given ((request, name) :: others) ↔
      Allocated oracle given request name ∧
        Allocation oracle (given ++ [(request, name)]) others := by
  constructor
  · refine fun allocation => ⟨by simpa using allocation [] request name others rfl, ?_⟩
    intro before later given' others' split
    have further := allocation ((request, name) :: before) later given' others' (by rw [split]; rfl)
    rwa [← List.append_cons]
  · rintro ⟨allocated, rest⟩ before later given' others' split
    cases before with
    | nil =>
        cases split
        rwa [List.append_nil]
    | cons entry before =>
        obtain ⟨rfl, split'⟩ := List.cons_eq_cons.mp split
        have further := rest before later given' others' split'
        rwa [← List.append_cons] at further

namespace Table

variable {oracle : Oracle}

theorem candidate_run_new {table : Table oracle} {spelling : String}
    (new : table.candidates.lookup spelling = none) :
    (candidate spelling).run table =
      let answer := oracle.ask table.memory spelling
      let proposal := answer.1.bind sanitize?
      let fallbacks := table.fallbacks + [proposal].count none
      let base := proposal.getD ("var_" ++ toString fallbacks)
      (base, { table with memory := answer.2, fallbacks,
                          candidates := (spelling, base) :: table.candidates }) := by
  simp only [candidate, StateT.run_bind, StateT.run_get, pure_bind, new]
  cases (oracle.ask table.memory spelling).1.bind sanitize? <;> rfl

/-- What the spellings that came up so far make of a table. -/
structure Consulted (table : Table oracle) (spellings : List String) : Prop where
  memory : table.memory = (oracle.consult oracle.initial spellings).2
  fallbacks : table.fallbacks = (oracle.proposals spellings).count none
  candidates : ∀ spelling, table.candidates.lookup spelling =
    if spelling ∈ spellings then some (baseName oracle spellings spelling) else none

/-- A table gives a spelling its base name, and takes note of the spelling. -/
theorem candidate_consulted {table : Table oracle} {spellings : List String}
    (consulted : table.Consulted spellings) (spelling : String) :
    let asked := (candidate spelling).run table
    asked.1 = baseName oracle (noted spellings spelling) spelling ∧
      asked.2.Consulted (noted spellings spelling) := by
  by_cases mem : spelling ∈ spellings
  · have known : table.candidates.lookup spelling = some (baseName oracle spellings spelling) := by
      rw [consulted.candidates, if_pos mem]
    rw [candidate_run_known known, noted, if_pos mem]
    exact ⟨rfl, consulted⟩
  · have new : table.candidates.lookup spelling = none := by
      rw [consulted.candidates, if_neg mem]
    rw [candidate_run_new new, noted, if_neg mem]
    extract_lets answer proposal fallbacks base
    have counted : fallbacks = (oracle.proposals (spellings ++ [spelling])).count none := by
      rw [Oracle.proposals, Oracle.consult_concat, List.count_append, ← consulted.memory,
        ← Oracle.proposals, ← consulted.fallbacks]
    have based : base = baseName oracle (spellings ++ [spelling]) spelling := by
      rw [baseName_concat_self oracle mem, ← consulted.memory, ← counted]
    refine ⟨based, ?_, counted, fun other => ?_⟩
    · rw [Oracle.consult_concat]
      dsimp only
      rw [← consulted.memory]
    · by_cases same : other = spelling
      · subst same
        rw [List.lookup_cons_self, based, if_pos (by simp)]
      · have differs : (other == spelling) = false := by simpa using same
        rw [List.lookup_cons, differs, consulted.candidates]
        simp only [List.mem_append, List.mem_singleton, same, or_false]
        split
        · rename_i listed
          rw [baseName_concat_of_mem oracle listed]
        · rfl

theorem candidate_keeps (table : Table oracle) (spelling : String) :
    ((candidate spelling).run table).2.entities = table.entities ∧
      ((candidate spelling).run table).2.fields = table.fields := by
  cases known : table.candidates.lookup spelling with
  | some base =>
      rw [candidate_run_known known]
      exact ⟨rfl, rfl⟩
  | none =>
      rw [candidate_run_new known]
      exact ⟨rfl, rfl⟩

/-- The names that an owner has to avoid. -/
def taken (table : Table oracle) : Owner → List String
  | .entity _ => table.takenEntities
  | .field _ => table.takenFields

theorem name?_candidate (table : Table oracle) (spelling : String) (owner : Owner) :
    ((candidate spelling).run table).2.name? owner = table.name? owner := by
  obtain ⟨entities, fields⟩ := candidate_keeps table spelling
  cases owner with
  | entity id => exact congrArg (List.lookup id) entities
  | field spelling => exact congrArg (List.lookup spelling) fields

theorem taken_candidate (table : Table oracle) (spelling : String) (owner : Owner) :
    ((candidate spelling).run table).2.taken owner = table.taken owner := by
  obtain ⟨entities, fields⟩ := candidate_keeps table spelling
  cases owner with
  | entity id => exact congrArg (fun entries => reserved ++ entries.map Prod.snd) entities
  | field spelling => exact congrArg (List.map Prod.snd) fields

/-- The table in which an owner has a name. -/
def give (table : Table oracle) (name : String) : Owner → Table oracle
  | .entity id => { table with entities := (id, name) :: table.entities }
  | .field spelling => { table with fields := (spelling, name) :: table.fields }

theorem answer_run_new {table : Table oracle} {request : Request}
    (new : table.name? request.owner = none) :
    (answer request).run table =
      let asked := (candidate request.spelling).run table
      let name := fresh asked.1 (asked.2.taken request.owner)
      (name, asked.2.give name request.owner) := by
  cases request with
  | entity id spelling => exact entity_run_new new spelling
  | field spelling => exact field_run_new new

theorem name?_give (table : Table oracle) (name : String) (owner other : Owner) :
    (table.give name owner).name? other =
      if other = owner then some name else table.name? other := by
  cases owner <;> cases other <;> simp [give, name?, List.lookup_cons] <;> grind

theorem mem_taken_give {table : Table oracle} {name : String} {owner other : Owner}
    {given : String} :
    given ∈ (table.give name owner).taken other ↔
      given ∈ table.taken other ∨ owner.isField = other.isField ∧ name = given := by
  cases owner <;> cases other <;>
    simp [give, taken, takenEntities, takenFields, Owner.isField] <;> grind

/-- What the requests so far make of a table. -/
structure Mirrors (table : Table oracle) (given : Run) : Prop where
  consulted : table.Consulted (originals (given.map Prod.fst))
  known : ∀ owner, table.name? owner = (given.find? (·.1.owner = owner)).map Prod.snd
  taken : ∀ owner name, name ∈ table.taken owner ↔ ¬ Free given owner name

theorem mirrors_empty (oracle : Oracle) : (empty oracle).Mirrors [] where
  consulted := ⟨rfl, rfl, fun _ => rfl⟩
  known owner := by cases owner <;> rfl
  taken owner name := by
    cases owner <;> simp [empty, Table.taken, takenEntities, takenFields, Free, Owner.isField]

/-- An owner that has a name gets it again, and that is all. -/
theorem Mirrors.again {table : Table oracle} {given : Run} (mirrors : table.Mirrors given)
    {request : Request} {name : String} (known : table.name? request.owner = some name) :
    Allocated oracle given request name ∧ table.Mirrors (given ++ [(request, name)]) := by
  have earlier := mirrors.known request.owner
  rw [known] at earlier
  obtain ⟨entry, found, rfl⟩ := Option.map_eq_some_iff.mp earlier.symm
  have mem := List.mem_of_find?_eq_some found
  have same : entry.1.owner = request.owner := by simpa using List.find?_some found
  refine ⟨.again found, ?_, fun owner => ?_, fun owner other => ?_⟩
  · rw [List.map_append, List.map_singleton,
      originals_of_seen ⟨_, List.mem_map_of_mem mem, same⟩]
    exact mirrors.consulted
  · rw [mirrors.known, List.find?_append]
    by_cases asked : request.owner = owner
    · subst asked
      rw [found]
      rfl
    · simp [asked]
  · rw [mirrors.taken, free_concat_of_mem mem same]

/-- A new owner gets the base name with the least suffix that is free. -/
theorem Mirrors.first {table : Table oracle} {given : Run} (mirrors : table.Mirrors given)
    {request : Request} (new : table.name? request.owner = none) :
    let asked := (candidate request.spelling).run table
    let name := fresh asked.1 (asked.2.taken request.owner)
    Allocated oracle given request name ∧
      (asked.2.give name request.owner).Mirrors (given ++ [(request, name)]) := by
  have missing := mirrors.known request.owner
  rw [new] at missing
  have unseen : ∀ entry ∈ given, entry.1.owner ≠ request.owner := by
    simpa using missing.symm
  have first : ¬ ∃ earlier ∈ given.map Prod.fst, earlier.owner = request.owner := by
    simpa using unseen
  obtain ⟨based, consulted⟩ := candidate_consulted mirrors.consulted request.spelling
  rw [← originals_of_unseen first] at based consulted
  change _ = given.base oracle request at based
  extract_lets asked name
  refine ⟨?_, ?_, fun owner => ?_, fun owner other => ?_⟩
  · obtain ⟨suffix, chosen, free, blocked⟩ := fresh_least asked.1 (asked.2.taken request.owner)
    rw [taken_candidate, mirrors.taken, not_not] at free
    have least : ∀ smaller < suffix,
        ¬ Free given request.owner (suffixed asked.1 smaller) := by
      intro smaller less
      have mem := blocked smaller less
      rwa [taken_candidate, mirrors.taken] at mem
    rw [show name = suffixed asked.1 suffix from chosen]
    rw [based] at free least ⊢
    exact .first suffix unseen free least
  · rw [List.map_append, List.map_singleton]
    cases owner : request.owner <;> exact ⟨consulted.1, consulted.2, consulted.3⟩
  · rw [name?_give, name?_candidate, mirrors.known, List.find?_append]
    by_cases same : request.owner = owner
    · subst same
      have missing : given.find? (·.1.owner = request.owner) = none := by simpa using unseen
      simp [missing]
    · have other : owner ≠ request.owner := fun h => same h.symm
      simp [same, other]
  · rw [mem_taken_give, taken_candidate, mirrors.taken, free_concat]
    tauto

/-- The answer to a request is the name that the ones before it make of it. -/
theorem Mirrors.answer {table : Table oracle} {given : Run} (mirrors : table.Mirrors given)
    (request : Request) :
    let answered := (answer request).run table
    Allocated oracle given request answered.1 ∧
      answered.2.Mirrors (given ++ [(request, answered.1)]) := by
  cases known : table.name? request.owner with
  | some name =>
      rw [answer_run_known known]
      exact mirrors.again known
  | none =>
      rw [answer_run_new known]
      exact mirrors.first known

/-! ## Whole runs -/

/-- The names of a run are the ones that the requests make of each other, and no other names are. -/
theorem Mirrors.answers {table : Table oracle} {given : Run} (mirrors : table.Mirrors given)
    (requests : List Request) (names : List String) :
    ((answers requests).run table).1 = names ↔
      names.length = requests.length ∧ Allocation oracle given (requests.zip names) := by
  induction requests generalizing table given names with
  | nil =>
      rw [List.zip_nil_left, List.length_nil, List.length_eq_zero_iff, and_iff_left allocation_nil]
      exact eq_comm
  | cons request others ih =>
      obtain ⟨allocated, mirrors'⟩ := mirrors.answer request
      cases names with
      | nil => simp [answers_cons_run]
      | cons name names =>
          rw [answers_cons_run, List.zip_cons_cons, allocation_cons, List.length_cons,
            List.length_cons, Nat.add_right_cancel_iff, List.cons_eq_cons, ih mirrors']
          constructor
          · rintro ⟨rfl, length, rest⟩
            exact ⟨length, allocated, rest⟩
          · rintro ⟨length, first, rest⟩
            obtain rfl := allocated.unique first
            exact ⟨rfl, length, rest⟩

/-- A spelling that comes up as a field has the same base name as an entity, and counts once. -/
example :
    ((answers [.field "a", .entity ⟨0⟩ "b", .entity ⟨1⟩ "a", .entity ⟨2⟩ "a", .field "c"]).run
      (empty Oracle.silent)).1 = ["var_1", "var_2", "var_1", "var_1_1", "var_3"] := by
  decide +kernel

end Table

end Qalam.Naming

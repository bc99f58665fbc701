/-
# Runs of requests to a table of names

A run is a sequence of requests to one table, which is empty at first. Beside the name that each
request gets, its transcript has the questions that the oracle was asked on account of it. To see
these the oracle keeps a list of them, which has no influence on the names.

Over a whole run every name can stand in the generated code, different owners in one name space
have different names, and what has a name keeps it without a further question. The oracle hears
each spelling once at most, because a question and a base name for its spelling come together.
-/

import Qalam.Proofs.EcmaScript.Grammar
import Qalam.Proofs.Naming.Table

namespace Qalam.Naming

/-- What a name belongs to. Entities and fields have separate name spaces. -/
inductive Owner
  | entity (id : EntityId)
  | field (spelling : String)
  deriving DecidableEq

/-- A request for the name of an entity or of a field, with its spelling in the source. -/
inductive Request
  | entity (id : EntityId) (spelling : String)
  | field (spelling : String)

namespace Request

/-- What a request wants a name for. The spelling of an entity is of no importance. -/
def owner : Request → Owner
  | .entity id _ => .entity id
  | .field spelling => .field spelling

/-- The spelling in the source. -/
def spelling : Request → String
  | .entity _ spelling | .field spelling => spelling

end Request

namespace Table

variable {oracle : Oracle}

/-- Answer a request. -/
def answer : Request → StateM (Table oracle) String
  | .entity id spelling => entity id spelling
  | .field spelling => field spelling

/-- Answer requests one after the other. -/
def answers : List Request → StateM (Table oracle) (List String)
  | [] => return []
  | request :: others => do
    let name ← answer request
    let names ← answers others
    return name :: names

/-- The name of an owner, if it has one already. -/
def name? (table : Table oracle) : Owner → Option String
  | .entity id => table.entities.lookup id
  | .field spelling => table.fields.lookup spelling

theorem answers_cons_run (request : Request) (others : List Request) (table : Table oracle) :
    (answers (request :: others)).run table =
      let first := (answer request).run table
      let rest := (answers others).run first.2
      (first.1 :: rest.1, rest.2) := rfl

/-! ## One request -/

theorem answer_run_known {table : Table oracle} {request : Request} {name : String}
    (known : table.name? request.owner = some name) :
    (answer request).run table = (name, table) := by
  cases request with
  | entity id spelling => exact entity_run_known known spelling
  | field spelling => exact field_run_known known

theorem answer_sound {table : Table oracle} (sound : Sound table) (request : Request) :
    Sound ((answer request).run table).2 := by
  cases request with
  | entity id spelling => exact (entity_spec sound id spelling).1
  | field spelling => exact (field_spec sound spelling).1

/-- Whoever asks for a name has it from then on. -/
theorem name?_answer {table : Table oracle} (request : Request) :
    ((answer request).run table).2.name? request.owner =
      some ((answer request).run table).1 := by
  cases known : table.name? request.owner with
  | some name =>
      rw [answer_run_known known]
      exact known
  | none =>
      cases request with
      | entity id spelling =>
          rw [answer, entity_run_new known]
          exact List.lookup_cons_self
      | field spelling =>
          rw [answer, field_run_new known]
          exact List.lookup_cons_self

/-- No request takes a name away. -/
theorem name?_answer_of_some {table : Table oracle} (sound : Sound table) (request : Request)
    {owner : Owner} {name : String} (known : table.name? owner = some name) :
    ((answer request).run table).2.name? owner = some name := by
  cases taken : table.name? request.owner with
  | some other =>
      rw [answer_run_known taken]
      exact known
  | none =>
      cases request with
      | entity id spelling =>
          obtain ⟨-, -, entities, fields⟩ := candidate_spec sound spelling
          rw [answer, entity_run_new taken]
          cases owner with
          | entity other =>
              refine lookup_cons_of_some ?_ ?_
              · rwa [entities]
              · rwa [entities]
          | field other =>
              change List.lookup other _ = _
              rwa [fields]
      | field spelling =>
          obtain ⟨-, -, entities, fields⟩ := candidate_spec sound spelling
          rw [answer, field_run_new taken]
          cases owner with
          | entity other =>
              change List.lookup other _ = _
              rwa [entities]
          | field other =>
              refine lookup_cons_of_some ?_ ?_
              · rwa [fields]
              · rwa [fields]

/-! ## Questions -/

/-- The questions that the oracle was asked, the latest one first. -/
def questions (table : Table oracle.recording) : List String := table.memory.2

/-- The same table for an oracle that keeps no list of its questions. -/
def forget (table : Table oracle.recording) : Table oracle :=
  ⟨table.memory.1, table.candidates, table.fallbacks, table.entities, table.fields⟩

theorem candidate_forget (table : Table oracle.recording) (spelling : String) :
    (candidate spelling).run table.forget =
      (((candidate spelling).run table).1, ((candidate spelling).run table).2.forget) := by
  cases known : table.candidates.lookup spelling with
  | some base =>
      have known' : table.forget.candidates.lookup spelling = some base := known
      rw [candidate_run_known known, candidate_run_known known']
  | none =>
      have known' : table.forget.candidates.lookup spelling = none := known
      have same : (oracle.recording.ask table.memory spelling).1 =
          (oracle.ask table.forget.memory spelling).1 := rfl
      simp only [candidate, StateT.run_bind, StateT.run_get, pure_bind, known, known', same]
      cases (oracle.ask table.forget.memory spelling).1.bind sanitize? <;> rfl

/-- The list of questions has no influence on the answer. -/
theorem answer_forget (table : Table oracle.recording) (request : Request) :
    (answer request).run table.forget =
      (((answer request).run table).1, ((answer request).run table).2.forget) := by
  cases known : table.name? request.owner with
  | some name =>
      have known' : table.forget.name? request.owner = some name := by
        cases request <;> exact known
      rw [answer_run_known known, answer_run_known known']
  | none =>
      cases request with
      | entity id spelling =>
          have known' : table.forget.entities.lookup id = none := known
          rw [answer, answer, entity_run_new known', entity_run_new known, candidate_forget]
          rfl
      | field spelling =>
          have known' : table.forget.fields.lookup spelling = none := known
          rw [answer, answer, field_run_new known', field_run_new known, candidate_forget]
          rfl

/-- Every question has led to a base name, and no question was asked twice. -/
structure Asked (table : Table oracle.recording) : Prop where
  questions : table.questions = table.candidates.map Prod.fst
  nodup : table.questions.Nodup

theorem asked_empty (oracle : Oracle) : Asked (empty oracle.recording) :=
  ⟨rfl, List.nodup_nil⟩

/-- A spelling without a base name is a question that was not asked yet. -/
theorem candidate_asked {table : Table oracle.recording} (asked : Asked table)
    (spelling : String) :
    Asked ((candidate spelling).run table).2 ∧
      ∃ new, (new = [] ∨ new = [spelling]) ∧
        ((candidate spelling).run table).2.questions = new ++ table.questions := by
  cases known : table.candidates.lookup spelling with
  | some base =>
      rw [candidate_run_known known]
      exact ⟨asked, [], .inl rfl, rfl⟩
  | none =>
      have unasked : spelling ∉ table.questions := by
        rw [asked.questions]
        intro mem
        obtain ⟨entry, listed, rfl⟩ := List.mem_map.mp mem
        have differs := List.lookup_eq_none_iff.mp known entry listed
        simp at differs
      -- Whatever the oracle proposes, the spelling is a new question and has a new base name.
      have added : ∀ (base : String) (fallbacks : Nat) (memory : oracle.recording.Memory),
          memory.2 = spelling :: table.memory.2 → Asked ⟨memory,
            (spelling, base) :: table.candidates, fallbacks, table.entities, table.fields⟩ := by
        intro base fallbacks memory told
        constructor
        · change memory.2 = spelling :: table.candidates.map Prod.fst
          rw [told, ← asked.questions]
          rfl
        · change memory.2.Nodup
          rw [told]
          exact List.nodup_cons.mpr ⟨unasked, asked.nodup⟩
      simp only [candidate, StateT.run_bind, StateT.run_get, pure_bind, known]
      cases (oracle.recording.ask table.memory spelling).1.bind sanitize? with
      | some base => exact ⟨added base _ _ rfl, [spelling], .inr rfl, rfl⟩
      | none => exact ⟨added _ _ _ rfl, [spelling], .inr rfl, rfl⟩

theorem answer_asked {table : Table oracle.recording} (asked : Asked table) (request : Request) :
    Asked ((answer request).run table).2 ∧
      ∃ new, (new = [] ∨ new = [request.spelling]) ∧
        ((answer request).run table).2.questions = new ++ table.questions := by
  cases known : table.name? request.owner with
  | some name =>
      rw [answer_run_known known]
      exact ⟨asked, [], .inl rfl, rfl⟩
  | none =>
      cases request with
      | entity id spelling =>
          obtain ⟨kept, new⟩ := candidate_asked asked spelling
          rw [answer, entity_run_new known]
          exact ⟨⟨kept.questions, kept.nodup⟩, new⟩
      | field spelling =>
          obtain ⟨kept, new⟩ := candidate_asked asked spelling
          rw [answer, field_run_new known]
          exact ⟨⟨kept.questions, kept.nodup⟩, new⟩

/-! ## Whole runs -/

/-- A request that was answered: its name, and what the oracle was asked on account of it. -/
structure Answered where
  request : Request
  name : String
  asked : List String

/-- What happens to requests one after the other. -/
def transcript : List Request → Table oracle.recording → List Answered
  | [], _ => []
  | request :: others, table =>
    let (name, after) := (answer request).run table
    let asked := after.questions.take (after.questions.length - table.questions.length)
    ⟨request, name, asked⟩ :: transcript others after

theorem transcript_cons {table : Table oracle.recording} (asked : Asked table)
    (request : Request) (others : List Request) :
    ∃ new, (new = [] ∨ new = [request.spelling]) ∧
      ((answer request).run table).2.questions = new ++ table.questions ∧
      transcript (request :: others) table =
        ⟨request, ((answer request).run table).1, new⟩ ::
          transcript others ((answer request).run table).2 := by
  obtain ⟨-, new, single, grown⟩ := answer_asked asked request
  refine ⟨new, single, grown, ?_⟩
  have cut : ((answer request).run table).2.questions.take
      (((answer request).run table).2.questions.length - table.questions.length) = new := by
    rw [grown]
    simp
  rw [← cut]
  rfl

/-- Names that are safe over a whole run. What has a name keeps it, and the oracle is not asked
again; no question is asked twice; different entities have different names, and so have different
fields; every name can stand in the generated code; and no entity has the name of a word that
means something there. -/
structure Safe (run : List Answered) : Prop where
  kept : run.Pairwise fun earlier later => later.request.owner = earlier.request.owner →
    later.name = earlier.name ∧ later.asked = []
  asked : ∀ entry ∈ run, entry.asked = [] ∨ entry.asked = [entry.request.spelling]
  once : (run.flatMap Answered.asked).Nodup
  entities : ∀ first ∈ run, ∀ second ∈ run, ∀ {id id'}, first.request.owner = .entity id →
    second.request.owner = .entity id' → id ≠ id' → first.name ≠ second.name
  fields : ∀ first ∈ run, ∀ second ∈ run, ∀ {spelling spelling'},
    first.request.owner = .field spelling → second.request.owner = .field spelling' →
    spelling ≠ spelling' → first.name ≠ second.name
  usable : ∀ entry ∈ run, Usable entry.name
  free : ∀ entry ∈ run, ∀ {id}, entry.request.owner = .entity id → entry.name ∉ reserved

section

variable {table : Table oracle.recording}

theorem answers_sound {table : Table oracle} (sound : Sound table) (requests : List Request) :
    Sound ((answers requests).run table).2 := by
  induction requests generalizing table with
  | nil => exact sound
  | cons request others ih =>
      rw [answers_cons_run]
      exact ih (answer_sound sound request)

theorem name?_answers_of_some {table : Table oracle} (sound : Sound table)
    (requests : List Request) {owner : Owner} {name : String}
    (known : table.name? owner = some name) :
    ((answers requests).run table).2.name? owner = some name := by
  induction requests generalizing table with
  | nil => exact known
  | cons request others ih =>
      rw [answers_cons_run]
      exact ih (answer_sound sound request) (name?_answer_of_some sound request known)

/-- All names of a run are names of the table in the end. -/
theorem name?_of_mem_transcript (sound : Sound table) (asked : Asked table)
    {requests : List Request} {entry : Answered} (listed : entry ∈ transcript requests table) :
    ((answers requests).run table).2.name? entry.request.owner = some entry.name := by
  induction requests generalizing table with
  | nil => cases listed
  | cons request others ih =>
      obtain ⟨new, -, -, split⟩ := transcript_cons asked request others
      rw [answers_cons_run]
      rw [split] at listed
      rcases List.mem_cons.mp listed with rfl | further
      · exact name?_answers_of_some (answer_sound sound request) others (name?_answer request)
      · exact ih (answer_sound sound request) (answer_asked asked request).1 further

/-- Requests for what has a name change nothing. -/
theorem known_of_mem_transcript (sound : Sound table) (asked : Asked table)
    {requests : List Request} {entry : Answered} (listed : entry ∈ transcript requests table)
    {name : String} (known : table.name? entry.request.owner = some name) :
    entry.name = name ∧ entry.asked = [] := by
  induction requests generalizing table with
  | nil => cases listed
  | cons request others ih =>
      obtain ⟨new, -, grown, split⟩ := transcript_cons asked request others
      rw [split] at listed
      rcases List.mem_cons.mp listed with rfl | further
      · rw [answer_run_known known] at grown ⊢
        exact ⟨rfl, by simpa using grown⟩
      · exact ih (answer_sound sound request) (answer_asked asked request).1 further
          (name?_answer_of_some sound request known)

theorem transcript_kept (sound : Sound table) (asked : Asked table) (requests : List Request) :
    (transcript requests table).Pairwise fun earlier later =>
      later.request.owner = earlier.request.owner →
        later.name = earlier.name ∧ later.asked = [] := by
  induction requests generalizing table with
  | nil => exact .nil
  | cons request others ih =>
      obtain ⟨new, -, -, split⟩ := transcript_cons asked request others
      have sound' := answer_sound sound request
      have asked' := (answer_asked asked request).1
      rw [split]
      refine .cons (fun later listed same => ?_) (ih sound' asked')
      refine known_of_mem_transcript sound' asked' listed ?_
      rw [same]
      exact name?_answer request

theorem asked_of_mem_transcript (asked : Asked table) {requests : List Request}
    {entry : Answered} (listed : entry ∈ transcript requests table) :
    entry.asked = [] ∨ entry.asked = [entry.request.spelling] := by
  induction requests generalizing table with
  | nil => cases listed
  | cons request others ih =>
      obtain ⟨new, single, -, split⟩ := transcript_cons asked request others
      rw [split] at listed
      rcases List.mem_cons.mp listed with rfl | further
      · exact single
      · exact ih (answer_asked asked request).1 further

/-- The questions of a run are those that the oracle has kept since its beginning. -/
theorem questions_answers (asked : Asked table) (requests : List Request) :
    Asked ((answers requests).run table).2 ∧
      ((answers requests).run table).2.questions =
        ((transcript requests table).flatMap Answered.asked).reverse ++ table.questions := by
  induction requests generalizing table with
  | nil => exact ⟨asked, rfl⟩
  | cons request others ih =>
      obtain ⟨new, single, grown, split⟩ := transcript_cons asked request others
      obtain ⟨kept, further⟩ := ih (answer_asked asked request).1
      refine ⟨kept, ?_⟩
      have alone : new.reverse = new := by rcases single with rfl | rfl <;> rfl
      rw [answers_cons_run, split, List.flatMap_cons, List.reverse_append, List.append_assoc,
        alone, ← grown]
      exact further

theorem names_transcript (asked : Asked table) (requests : List Request) :
    (transcript requests table).map Answered.name =
      ((answers requests).run table.forget).1 := by
  induction requests generalizing table with
  | nil => rfl
  | cons request others ih =>
      obtain ⟨new, -, -, split⟩ := transcript_cons asked request others
      rw [split, List.map_cons, ih (answer_asked asked request).1, answers_cons_run,
        answer_forget]

theorem requests_transcript (asked : Asked table) (requests : List Request) :
    (transcript requests table).map Answered.request = requests := by
  induction requests generalizing table with
  | nil => rfl
  | cons request others ih =>
      obtain ⟨new, -, -, split⟩ := transcript_cons asked request others
      rw [split, List.map_cons, ih (answer_asked asked request).1]

end

/-- Two fields never share a name. -/
theorem Sound.field_injective {table : Table oracle} (sound : Sound table)
    {first second name : String} (given : table.fields.lookup first = some name)
    (given' : table.fields.lookup second = some name) : first = second := by
  obtain ⟨before, behind, split, -⟩ := List.lookup_eq_some_iff.mp given
  obtain ⟨before', behind', split', -⟩ := List.lookup_eq_some_iff.mp given'
  have mem : (first, name) ∈ table.fields := by simp [split]
  have mem' : (second, name) ∈ table.fields := by simp [split']
  have same := List.inj_on_of_nodup_map sound.fieldNames mem mem' rfl
  exact congrArg Prod.fst same

theorem Sound.usable {table : Table oracle} (sound : Sound table) {owner : Owner} {name : String}
    (given : table.name? owner = some name) : Usable name := by
  cases owner with
  | entity id => exact (sound.of_lookup given).1
  | field spelling =>
      obtain ⟨before, behind, split, -⟩ := List.lookup_eq_some_iff.mp given
      exact sound.fields (spelling, name) (by simp [split])

theorem safe_transcript {table : Table oracle.recording} (sound : Sound table)
    (asked : Asked table) (requests : List Request) : Safe (transcript requests table) where
  kept := transcript_kept sound asked requests
  asked _ listed := asked_of_mem_transcript asked listed
  once := by
    obtain ⟨final, grown⟩ := questions_answers asked requests
    have nodup := final.nodup
    rw [grown] at nodup
    exact List.nodup_reverse.mp nodup.of_append_left
  entities := by
    intro first listed second listed' id id' owner owner' differ same
    have given := name?_of_mem_transcript sound asked listed
    have given' := name?_of_mem_transcript sound asked listed'
    rw [owner] at given
    rw [owner', ← same] at given'
    exact differ ((answers_sound sound requests).entity_injective given given')
  fields := by
    intro first listed second listed' spelling spelling' owner owner' differ same
    have given := name?_of_mem_transcript sound asked listed
    have given' := name?_of_mem_transcript sound asked listed'
    rw [owner] at given
    rw [owner', ← same] at given'
    exact differ ((answers_sound sound requests).field_injective given given')
  usable entry listed :=
    (answers_sound sound requests).usable (name?_of_mem_transcript sound asked listed)
  free := by
    intro entry listed id owner
    have given := name?_of_mem_transcript sound asked listed
    rw [owner] at given
    exact ((answers_sound sound requests).of_lookup given).2.1

/-- A reserved proposal, a proposal of what another name has become by its suffix, and a field
with the spelling of an entity. -/
example :
    (transcript [.entity ⟨0⟩ "a", .entity ⟨1⟩ "b", .entity ⟨2⟩ "c", .field "a", .entity ⟨0⟩ "d"]
      (empty (Oracle.dictionary [("a", "Switch"), ("b", "switch-1")]).recording)).map
        (fun entry => (entry.name, entry.asked)) =
      [("switch_1", ["a"]), ("switch_1_1", ["b"]), ("var_1", ["c"]), ("switch", []),
        ("switch_1", [])] := by
  decide +kernel

end Table

end Qalam.Naming

/-
# A script meets a parser with budgets

A parser with a budget and a script without one do the same, as long as no more tokens are left than
the budget allows. That the budget is never felt needs that tokens are consumed, so one relation,
`Meets`, says all of it: the script ends, and as the parser does; it has consumed tokens in front of
the end of the text and no others, and at least one of them where this is demanded. If it fails
because of what it found, then it found that at the place it names. All this is shown for every
routine by going through it step by step; here are the steps.

The two may read different lists, if the lists are the same up to the end of the text. So nothing
depends on what stands behind that end, nor on whether it is a token or only the end of the list.
-/

import Qalam.Proofs.Descent.Routine

namespace Qalam.Descent

open Qalam.Parser

/-- Two lists of tokens that a parser cannot tell apart: they are the same up to the end of the
text, which has the same position in both. -/
inductive Alike : List Token → List Token → Prop
  | ends {tokens tokens' : List Token} (here : kindOf tokens = .eof) (there : kindOf tokens' = .eof)
      (place : posOf tokens = posOf tokens') : Alike tokens tokens'
  | token {token : Token} {tokens tokens' : List Token} (real : token.kind ≠ .eof)
      (behind : Alike tokens tokens') : Alike (token :: tokens) (token :: tokens')

namespace Alike

theorem refl (tokens : List Token) : Alike tokens tokens := by
  induction tokens with
  | nil => exact .ends rfl rfl rfl
  | cons token others ih =>
      by_cases last : token.kind = .eof
      · exact .ends last last rfl
      · exact .token last ih

variable {tokens tokens' : List Token}

theorem kindOf_eq (alike : Alike tokens tokens') : kindOf tokens' = kindOf tokens := by
  cases alike with
  | ends here there => exact there.trans here.symm
  | token => rfl

theorem posOf_eq (alike : Alike tokens tokens') : posOf tokens' = posOf tokens := by
  cases alike with
  | ends _ _ place => exact place.symm
  | token => rfl

/-- Tokens without an end are like those tokens with an end at the first position. -/
theorem append_eof (real : ∀ token ∈ tokens, token.kind ≠ .eof) :
    Alike tokens (tokens ++ [⟨.eof, .start⟩]) := by
  induction tokens with
  | nil => exact .ends rfl rfl rfl
  | cons token others ih =>
      rw [List.forall_mem_cons] at real
      exact .token real.1 (ih real.2)

end Alike

/-- The same tokens, none of which ends the text, were consumed from two lists that are alike. -/
structure Consumes (used tokens tokens' rest rest' : List Token) : Prop where
  here : tokens = used ++ rest
  there : tokens' = used ++ rest'
  alike : Alike rest rest'
  real : ∀ token ∈ used, token.kind ≠ .eof

namespace Consumes

variable {used more tokens tokens' middle middle' rest rest' : List Token}

theorem nothing (alike : Alike tokens tokens') : Consumes [] tokens tokens' tokens tokens' :=
  ⟨rfl, rfl, alike, by simp⟩

theorem trans (first : Consumes used tokens tokens' middle middle')
    (second : Consumes more middle middle' rest rest') :
    Consumes (used ++ more) tokens tokens' rest rest' where
  here := by rw [first.here, second.here, List.append_assoc]
  there := by rw [first.there, second.there, List.append_assoc]
  alike := second.alike
  real := List.forall_mem_append.mpr ⟨first.real, second.real⟩

theorem length_add (consumes : Consumes used tokens tokens' rest rest') :
    used.length + rest.length = tokens.length := by
  rw [consumes.here, List.length_append]

end Consumes

/-- A token that does not end the text can be consumed. -/
theorem Alike.consumes_tail {tokens tokens' : List Token} (alike : Alike tokens tokens')
    (real : kindOf tokens ≠ .eof) :
    ∃ used, used ≠ [] ∧ Consumes used tokens tokens' tokens.tail tokens'.tail := by
  cases alike with
  | ends here => exact absurd here real
  | @token token _ _ real behind => exact ⟨[token], by simp, rfl, rfl, behind, by simpa⟩

/-- What was found where the grammar wants something else. -/
def found? : SyntaxFault → Option TokenKind
  | .expected _ found => some found
  | _ => none

/-- What was found stands where the error is reported, behind tokens that do not end the text. -/
def Points (tokens : List Token) (error : SyntaxError) : Prop :=
  ∀ kind, found? error.fault = some kind → ∃ used rest, tokens = used ++ rest ∧
    (∀ token ∈ used, token.kind ≠ .eof) ∧ kindOf rest = kind ∧ posOf rest = error.pos

namespace Points

variable {used tokens tokens' rest rest' : List Token} {error : SyntaxError}

theorem of_none (silent : found? error.fault = none) : Points tokens error :=
  fun _ said => by simp [silent] at said

theorem here (wanted : Wanted) :
    Points tokens ⟨.expected wanted (kindOf tokens), posOf tokens⟩ :=
  fun _ said => ⟨[], tokens, rfl, by simp, Option.some.inj said, rfl⟩

theorem behind (consumes : Consumes used tokens tokens' rest rest') (points : Points rest error) :
    Points tokens error := by
  intro kind said
  obtain ⟨more, last, rfl, real, known, place⟩ := points kind said
  refine ⟨used ++ more, last, ?_, List.forall_mem_append.mpr ⟨consumes.real, real⟩, known, place⟩
  rw [consumes.here, List.append_assoc]

end Points

variable {α β γ δ : Type}

/-! ## What scripts lead to -/

namespace Runs

variable {script : Script α} {next : α → Script β} {parser : Parser α} {tokens rest : List Token}
variable {value : α} {error : SyntaxError} {outcome : Except SyntaxError (β × List Token)}

/-- A script leads to one outcome at most. -/
theorem unique {first second : Except SyntaxError (α × List Token)}
    (runs : Runs script tokens first) (again : Runs script tokens second) : first = second := by
  induction runs with
  | done =>
      cases again
      rfl
  | step reads _ ih =>
      cases again with
      | step reads' further =>
          cases reads.symm.trans reads'
          exact ih further
      | stepFails fails => cases reads.symm.trans fails
  | stepFails fails =>
      cases again with
      | step reads => cases fails.symm.trans reads
      | stepFails fails' => exact congrArg _ (Except.error.inj (fails.symm.trans fails'))
  | call _ _ inner further =>
      cases again with
      | call inner' further' =>
          cases inner inner'
          exact further further'
      | callFails inner' => cases inner inner'
  | callFails _ inner =>
      cases again with
      | call inner' => cases inner inner'
      | callFails inner' => exact congrArg _ (Except.error.inj (inner inner'))

theorem bind (first : Runs script tokens (.ok (value, rest)))
    (further : Runs (next value) rest outcome) : Runs (script >>= next) tokens outcome := by
  generalize reached : Except.ok (value, rest) = ended at first
  induction first with
  | done =>
      cases reached
      exact further
  | step reads _ ih => exact .step reads (ih further reached)
  | stepFails => cases reached
  | call inner _ _ ih => exact .call inner (ih further reached)
  | callFails => cases reached

theorem bind_error (first : Runs script tokens (.error error)) :
    Runs (script >>= next) tokens (.error error) := by
  generalize reached : Except.error error = ended at first
  induction first with
  | done => cases reached
  | step reads _ ih => exact .step reads (ih reached)
  | stepFails fails =>
      cases reached
      exact .stepFails fails
  | call inner _ _ ih => exact .call inner (ih reached)
  | callFails inner =>
      cases reached
      exact .callFails inner

/-- A parser is a script of one step. -/
theorem lift (parser : Parser α) (tokens : List Token) :
    Runs (liftM parser : Script α) tokens (parser tokens) := by
  cases ended : parser tokens with
  | error error => exact .stepFails ended
  | ok pair => exact .step ended .done

theorem lift_bind (reads : parser tokens = .ok (value, rest))
    (further : Runs (next value) rest outcome) :
    Runs ((liftM parser : Script α) >>= next) tokens outcome :=
  .step reads further

/-- A parser of two steps. -/
theorem lift_join {parser : Parser α} {next : α → Parser β}
    (runs : Runs ((liftM parser : Script α) >>= fun value => liftM (next value)) tokens outcome) :
    Runs (liftM (parser >>= next) : Script β) tokens outcome := by
  have whole := lift (parser >>= next) tokens
  have steps : Runs ((liftM parser : Script α) >>= fun value => liftM (next value)) tokens
      ((parser >>= next) tokens) := by
    show Runs _ tokens (Except.bind (parser tokens) fun reached => next reached.1 reached.2)
    cases ended : parser tokens with
    | error error => exact bind_error (.stepFails ended)
    | ok pair => exact lift_bind ended (lift (next pair.1) pair.2)
  rwa [steps.unique runs] at whole

/-- A call is what the routine does. -/
theorem called {routine : Routine α} {outcome : Except SyntaxError (α × List Token)}
    (runs : Runs (body routine) tokens outcome) : Runs (run routine) tokens outcome := by
  cases outcome with
  | error error => exact .callFails runs
  | ok pair => exact .call runs .done

/-- What a script has led to before a last step. -/
theorem of_bind (runs : Runs (script >>= next) tokens outcome) :
    (∃ value rest, Runs script tokens (.ok (value, rest)) ∧ Runs (next value) rest outcome) ∨
      ∃ error, Runs script tokens (.error error) ∧ outcome = .error error := by
  induction script generalizing tokens with
  | done value => exact .inl ⟨value, tokens, .done, runs⟩
  | step parser further ih =>
      cases runs with
      | stepFails fails => exact .inr ⟨_, .stepFails fails, rfl⟩
      | step reads runs =>
          rcases ih _ runs with ⟨value, rest, inner, last⟩ | ⟨error, inner, same⟩
          · exact .inl ⟨value, rest, .step reads inner, last⟩
          · exact .inr ⟨error, .step reads inner, same⟩
  | call routine further ih =>
      cases runs with
      | callFails fails => exact .inr ⟨_, .callFails fails, rfl⟩
      | call reads runs =>
          rcases ih _ runs with ⟨value, rest, inner, last⟩ | ⟨error, inner, same⟩
          · exact .inl ⟨value, rest, .call reads inner, last⟩
          · exact .inr ⟨error, .call reads inner, same⟩

theorem called_bind {routine : Routine α} (runs : Runs (body routine >>= next) tokens outcome) :
    Runs (run routine >>= next) tokens outcome := by
  rcases of_bind runs with ⟨value, rest, inner, further⟩ | ⟨error, inner, rfl⟩
  · exact .call inner further
  · exact .callFails inner

end Runs

/-! ## Meeting -/

/-- A script does with one list of tokens what a parser has done with another; its value is made of
that of the parser. If the value is one that `moves`, then something has been consumed. An error
points to what was found. -/
def Agrees (tokens tokens' : List Token) (moves : β → Bool) (script : Script β) (result : α → β) :
    Except SyntaxError (α × List Token) → Prop
  | .ok (value, rest) => ∃ used rest', Consumes used tokens tokens' rest rest' ∧
      (moves (result value) = true → used ≠ []) ∧ Runs script tokens' (.ok (result value, rest'))
  | .error error => Runs script tokens' (.error error) ∧ Points tokens error

/-- A script that does at least what another one does. -/
theorem Agrees.transfer {tokens tokens' : List Token} {moves : β → Bool} {script script' : Script β}
    {result : α → β} {outcome : Except SyntaxError (α × List Token)}
    (agrees : Agrees tokens tokens' moves script result outcome)
    (runs : ∀ {ended}, Runs script tokens' ended → Runs script' tokens' ended) :
    Agrees tokens tokens' moves script' result outcome := by
  cases outcome with
  | error error => exact ⟨runs agrees.1, agrees.2⟩
  | ok pair =>
      obtain ⟨used, rest', consumes, moved, does⟩ := agrees
      exact ⟨used, rest', consumes, moved, runs does⟩

/-- From a token of a given kind on, a script does what a parser does if at most so many tokens are
left. -/
def MeetsAt (kind : TokenKind) (limit : Nat) (moves : β → Bool) (script : Script β)
    (parser : Parser α) (result : α → β) : Prop :=
  ∀ tokens tokens', Alike tokens tokens' → tokens.length ≤ limit → kindOf tokens = kind →
    Agrees tokens tokens' moves script result (parser tokens)

/-- The same from any token on. -/
def Meets (limit : Nat) (moves : β → Bool) (script : Script β) (parser : Parser α)
    (result : α → β) : Prop :=
  ∀ kind, MeetsAt kind limit moves script parser result

/-- Every value moves. -/
def always (_ : α) : Bool := true

/-- No value has to move. -/
def never (_ : α) : Bool := false

theorem fail_run (wanted : Wanted) (tokens : List Token) :
    (fail wanted : Parser α) tokens =
      .error ⟨.expected wanted (kindOf tokens), posOf tokens⟩ := by
  rw [fail, bind_run (peek_run tokens), bind_run (here_run tokens)]
  rfl

theorem Runs.fail (wanted : Wanted) {tokens tokens' : List Token} (alike : Alike tokens tokens') :
    Runs (liftM (Parser.fail wanted : Parser α) : Script α) tokens'
      (.error ⟨.expected wanted (kindOf tokens), posOf tokens⟩) := by
  rw [← alike.kindOf_eq, ← alike.posOf_eq]
  exact .stepFails (fail_run wanted tokens')

namespace MeetsAt

variable {kind : TokenKind} {limit : Nat} {moves : β → Bool} {moves' : δ → Bool}
variable {script : Script β} {parser : Parser α} {result : α → β}
variable {next : β → Script δ} {next' : α → Parser γ} {result' : γ → δ}

theorem pure {value : β} {value' : α} (same : value = result value') (still : moves value = false) :
    MeetsAt kind limit moves (Pure.pure value) (Pure.pure value') result := by
  subst same
  intro tokens tokens' alike _ _
  exact ⟨[], tokens', .nothing alike, fun moved => by simp [still] at moved, .done⟩

theorem failAt {fault : SyntaxFault} (silent : found? fault = none) (pos : Position) :
    MeetsAt kind limit moves (liftM (Parser.failAt fault pos : Parser β))
      (Parser.failAt fault pos) result :=
  fun _ _ _ _ _ => ⟨.stepFails rfl, .of_none silent⟩

theorem fail (wanted : Wanted) :
    MeetsAt kind limit moves (liftM (Parser.fail wanted : Parser β)) (Parser.fail wanted)
      result := by
  intro tokens tokens' alike _ _
  rw [fail_run]
  exact ⟨.fail wanted alike, .here wanted⟩

theorem fail_bind {next : β → Script δ} (wanted : Wanted) :
    MeetsAt kind limit moves' (liftM (Parser.fail wanted) >>= next) (Parser.fail wanted)
      result' := by
  intro tokens tokens' alike _ _
  rw [fail_run]
  exact ⟨(Runs.fail wanted alike).bind_error, .here wanted⟩

/-- With fewer tokens, or with less demanded. -/
theorem weaken {fewer : Nat} {less : β → Bool}
    (meets : MeetsAt kind limit moves script parser result) (fits : fewer ≤ limit)
    (implied : ∀ value, less value = true → moves value = true) :
    MeetsAt kind fewer less script parser result := by
  intro tokens tokens' alike short known
  have step := meets tokens tokens' alike (Nat.le_trans short fits) known
  cases reached : parser tokens with
  | error error =>
      rw [reached] at step
      exact step
  | ok pair =>
      rw [reached] at step
      obtain ⟨used, rest', consumes, moved, runs⟩ := step
      exact ⟨used, rest', consumes, fun demanded => moved (implied _ demanded), runs⟩

/-- One step after another. If the first has consumed a token, then one token less is left and
nothing more is demanded. -/
theorem bind_counted (here : MeetsAt kind limit moves script parser result)
    (there : ∀ value, Meets (limit - (moves (result value)).toNat)
      (fun last => !moves (result value) && moves' last) (next (result value)) (next' value)
      result') :
    MeetsAt kind limit moves' (script >>= next) (parser >>= next') result' := by
  intro tokens tokens' alike short known
  have step := here tokens tokens' alike short known
  show Agrees _ _ _ _ _ (Except.bind (parser tokens) fun reached => next' reached.1 reached.2)
  cases reached : parser tokens with
  | error error =>
      rw [reached] at step
      exact ⟨step.1.bind_error, step.2⟩
  | ok pair =>
      obtain ⟨value, rest⟩ := pair
      rw [reached] at step
      obtain ⟨used, rest', consumes, moved, runs⟩ := step
      have left : rest.length ≤ limit - (moves (result value)).toNat := by
        have total := consumes.length_add
        cases demanded : moves (result value) with
        | false => simp only [Bool.toNat_false]; omega
        | true =>
            have some := List.length_pos_iff.mpr (moved demanded)
            simp only [Bool.toNat_true]
            omega
      have further := there value (kindOf rest) rest rest' consumes.alike left rfl
      show Agrees _ _ _ _ _ (next' value rest)
      cases ended : next' value rest with
      | error error =>
          rw [ended] at further
          exact ⟨runs.bind further.1, further.2.behind consumes⟩
      | ok pair =>
          rw [ended] at further
          obtain ⟨more, last, consumes', moved', runs'⟩ := further
          refine ⟨used ++ more, last, consumes.trans consumes', ?_, runs.bind runs'⟩
          intro demanded
          cases first : moves (result value) with
          | true => exact List.append_ne_nil_of_left_ne_nil (moved first) _
          | false => exact List.append_ne_nil_of_right_ne_nil _ (moved' (by simp [first, demanded]))

/-- One step after another, the first of which consumes a token. -/
theorem moving (here : MeetsAt kind limit always script parser result)
    (there : ∀ value, Meets (limit - 1) never (next (result value)) (next' value) result') :
    MeetsAt kind limit moves' (script >>= next) (parser >>= next') result' :=
  here.bind_counted there

/-- One step after another. If the first has consumed a token, then nothing more is demanded. -/
theorem bind (here : MeetsAt kind limit moves script parser result)
    (there : ∀ value, Meets limit (fun last => !moves (result value) && moves' last)
      (next (result value)) (next' value) result') :
    MeetsAt kind limit moves' (script >>= next) (parser >>= next') result' :=
  here.bind_counted fun value kind => (there value kind).weaken (Nat.sub_le _ _) fun _ => id

/-- A step that is a parser of two steps. -/
theorem join {first : Parser δ} {second : δ → Parser β}
    (meets : MeetsAt kind limit moves
      ((liftM first : Script δ) >>= fun value => liftM (second value)) parser result) :
    MeetsAt kind limit moves (liftM (first >>= second)) parser result :=
  fun tokens tokens' alike short known =>
    (meets tokens tokens' alike short known).transfer .lift_join

/-- A step that gives a value at once. -/
theorem lift_pure {value : β} {value' : α} (same : value = result value')
    (still : moves value = false) :
    MeetsAt kind limit moves (liftM (Pure.pure value : Parser β)) (Pure.pure value') result :=
  fun tokens tokens' alike short known =>
    (pure same still tokens tokens' alike short known).transfer fun runs => .lift_bind rfl runs

theorem here_bind {next : Position → Script δ} {next' : Position → Parser γ}
    (there : ∀ pos, MeetsAt kind limit moves' (next pos) (next' pos) result') :
    MeetsAt kind limit moves' (liftM here >>= next) (here >>= next') result' := by
  intro tokens tokens' alike short known
  have reads : here tokens' = .ok (posOf tokens, tokens') := by
    rw [← alike.posOf_eq]
    exact here_run tokens'
  rw [bind_run (here_run tokens)]
  exact (there (posOf tokens) tokens tokens' alike short known).transfer (.lift_bind reads)

theorem peek_bind {next : TokenKind → Script δ} {next' : TokenKind → Parser γ}
    (there : MeetsAt kind limit moves' (next kind) (next' kind) result') :
    MeetsAt kind limit moves' (liftM peek >>= next) (peek >>= next') result' := by
  intro tokens tokens' alike short known
  have reads : peek tokens' = .ok (kind, tokens') := by
    rw [← known, ← alike.kindOf_eq]
    exact peek_run tokens'
  rw [bind_run (peek_run tokens), known]
  exact (there tokens tokens' alike short known).transfer (.lift_bind reads)

theorem skip (real : kind ≠ .eof) :
    MeetsAt kind limit always (liftM Parser.skip : Script Unit) Parser.skip id := by
  intro tokens tokens' alike _ known
  obtain ⟨used, some, consumes⟩ := alike.consumes_tail (known ▸ real)
  exact ⟨used, tokens'.tail, consumes, fun _ => some, .lift Parser.skip tokens'⟩

theorem skip_bind {next : Unit → Script δ} {next' : Unit → Parser γ} (real : kind ≠ .eof)
    (there : Meets (limit - 1) never (next ()) (next' ()) result') :
    MeetsAt kind limit moves' (liftM Parser.skip >>= next) (Parser.skip >>= next') result' :=
  (skip real).moving fun _ => there

/-- A last step that only changes the value. -/
theorem change {finish : α → Parser γ} {result' : γ → β}
    (meets : MeetsAt kind limit moves script parser result)
    (same : ∀ value, ∃ last, finish value = Pure.pure last ∧ result value = result' last) :
    MeetsAt kind limit moves script (parser >>= finish) result' := by
  have twice : MeetsAt kind limit moves (script >>= Pure.pure) (parser >>= finish) result' := by
    apply meets.bind_counted
    intro value
    obtain ⟨last, ends, same⟩ := same value
    rw [ends]
    exact fun _ => pure same (by cases moves (result value) <;> rfl)
  rwa [bind_pure] at twice

theorem checkAssignable_bind {next : Unit → Script δ} {next' : Unit → Parser γ} (e : Expr)
    (mutation : Mutation) (there : MeetsAt kind limit moves' (next ()) (next' ()) result') :
    MeetsAt kind limit moves' (liftM (checkAssignable e mutation) >>= next)
      (checkAssignable e mutation >>= next') result' := by
  intro tokens tokens' alike short known
  cases assignable : e.isAssignable with
  | true =>
      have reads := checkAssignable_run assignable mutation
      rw [bind_run (reads tokens)]
      exact (there tokens tokens' alike short known).transfer (.lift_bind (reads tokens'))
  | false =>
      simp only [checkAssignable, assignable, Bool.not_false, if_true]
      exact ⟨.stepFails rfl, .of_none rfl⟩

end MeetsAt

namespace Meets

variable {limit : Nat} {moves : β → Bool} {moves' : δ → Bool}
variable {script : Script β} {parser : Parser α} {result : α → β}
variable {next : β → Script δ} {next' : α → Parser γ} {result' : γ → δ}

theorem pure {value : β} {value' : α} (same : value = result value') (still : moves value = false) :
    Meets limit moves (Pure.pure value) (Pure.pure value') result :=
  fun _ => MeetsAt.pure same still

theorem weaken {fewer : Nat} {less : β → Bool} (meets : Meets limit moves script parser result)
    (fits : fewer ≤ limit) (implied : ∀ value, less value = true → moves value = true) :
    Meets fewer less script parser result :=
  fun kind => (meets kind).weaken fits implied

theorem bind (here : Meets limit moves script parser result)
    (there : ∀ value, Meets limit (fun last => !moves (result value) && moves' last)
      (next (result value)) (next' value) result') :
    Meets limit moves' (script >>= next) (parser >>= next') result' :=
  fun kind => (here kind).bind there

theorem moving (here : Meets limit always script parser result)
    (there : ∀ value, Meets (limit - 1) never (next (result value)) (next' value) result') :
    Meets limit moves' (script >>= next) (parser >>= next') result' :=
  fun kind => (here kind).moving there

theorem change {finish : α → Parser γ} {result' : γ → β}
    (meets : Meets limit moves script parser result)
    (same : ∀ value, ∃ last, finish value = Pure.pure last ∧ result value = result' last) :
    Meets limit moves script (parser >>= finish) result' :=
  fun kind => (meets kind).change same

/-- A call of a routine meets what its script meets. -/
theorem called {routine : Routine β} (meets : Meets limit moves (body routine) parser result) :
    Meets limit moves (run routine) parser result :=
  fun kind tokens tokens' alike short known =>
    (meets kind tokens tokens' alike short known).transfer .called

/-- The same with more behind the call. -/
theorem called_bind {routine : Routine β} {parser : Parser γ}
    (meets : Meets limit moves' (body routine >>= next) parser result') :
    Meets limit moves' (run routine >>= next) parser result' :=
  fun kind tokens tokens' alike short known =>
    (meets kind tokens tokens' alike short known).transfer .called_bind

theorem accept {kind : TokenKind} (real : kind ≠ .eof) :
    Meets limit id (liftM (accept kind) : Script Bool) (accept kind) id := by
  intro next
  rw [Parser.accept]
  apply MeetsAt.join
  apply MeetsAt.peek_bind
  by_cases same : next = kind
  · rw [if_pos same]
    apply MeetsAt.join
    exact MeetsAt.skip_bind (same ▸ real) fun _ => MeetsAt.lift_pure rfl rfl
  · rw [if_neg same]
    exact MeetsAt.lift_pure rfl rfl

theorem expect {kind : TokenKind} (real : kind ≠ .eof) :
    Meets limit always (liftM (expect kind) : Script Unit) (expect kind) id := by
  intro next
  rw [Parser.expect]
  apply MeetsAt.join
  apply MeetsAt.peek_bind
  by_cases same : next = kind
  · rw [if_pos same]
    exact MeetsAt.skip (same ▸ real)
  · rw [if_neg same]
    exact MeetsAt.fail _

theorem sign (symbol : Symbol) :
    Meets limit always (liftM (sign symbol) : Script Unit) (sign symbol) id :=
  expect (by simp)

theorem word (keyword : Keyword) :
    Meets limit always (liftM (word keyword) : Script Unit) (word keyword) id :=
  expect (by simp)

theorem identifier : Meets limit always (liftM identifier : Script String) identifier id := by
  intro kind
  rw [Parser.identifier]
  apply MeetsAt.join
  apply MeetsAt.peek_bind
  cases kind with
  | ident name =>
      apply MeetsAt.join
      exact MeetsAt.skip_bind (by simp) fun _ => MeetsAt.lift_pure rfl rfl
  | _ => exact MeetsAt.fail _

/-- What is made of an identifier and its position. -/
theorem spelled {make : String → Position → α} :
    Meets limit always
      (liftM (do
        let pos ← here
        let name ← Parser.identifier
        return make name pos : Parser α) : Script α)
      (do
        let pos ← here
        let name ← Parser.identifier
        return make name pos) id := by
  intro kind
  apply MeetsAt.join
  apply MeetsAt.here_bind
  intro pos
  apply MeetsAt.join
  apply (identifier kind).moving
  exact fun name _ => MeetsAt.lift_pure rfl rfl

theorem binding : Meets limit always (liftM binding : Script Binding) binding id := spelled

theorem field : Meets limit always (liftM field : Script Field) field id := spelled

theorem parameter : Meets limit always (liftM parameter : Script Parameter) parameter id := spelled

end Meets

/-! ## The end of a loop -/

/-- At the end of the text every loop is over. -/
theorem round_of_eof (loop : Loop α) (before : α) {tokens : List Token}
    (last : kindOf tokens = .eof) :
    Runs (body (.round loop before)) tokens (.ok (none, tokens)) := by
  have peeks : peek tokens = .ok (.eof, tokens) := last ▸ peek_run tokens
  have refuses {kind : TokenKind} (real : kind ≠ .eof) :
      accept kind tokens = .ok (false, tokens) :=
    accept_false.mpr ⟨fun same => real (same.symm.trans last), rfl⟩
  cases loop with
  | statements place =>
      apply Runs.lift_bind peeks
      cases place <;> exact .done
  | items item => exact .lift_bind (refuses (by simp)) .done
  | chain tier =>
      apply Runs.lift_bind peeks
      cases tier <;> exact .done
  | suffixes => exact .lift_bind peeks .done
  | elseIfs => exact .lift_bind (here_run tokens) (.lift_bind (refuses (by simp)) .done)
  | clauses | members => exact .lift_bind peeks .done

theorem Meets.ended {loop : Loop β} {before : β} {value : α} {result : α → β}
    (same : before = result value) :
    Meets 0 never (run (.loop loop before)) (Pure.pure value) result := by
  subst same
  intro kind tokens tokens' alike short known
  have last : kindOf tokens' = .eof := by
    rw [alike.kindOf_eq, List.length_eq_zero_iff.mp (Nat.le_zero.mp short)]
    rfl
  refine ⟨[], tokens', .nothing alike, by simp [never], .called ?_⟩
  exact .call (round_of_eof loop _ last) .done

end Qalam.Descent

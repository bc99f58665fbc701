/-
# JavaScript expressions have one reading

Every derivation is found by the reader. For a form that associates to the left the reader arrives
behind the derived tokens with the derived tree and goes on from there; for the other forms it
stops there, if the next token cannot go on with the form.
-/

import Qalam.Proofs.EcmaScript.Reader

namespace Qalam.EcmaScript

/-- Tokens that go on with an increment or what is inside it. -/
def afterUnary : List Token := updates ++ suffixSigns true

/-- Tokens that go on with a power or what is inside it. -/
def afterExponent : List Token := .sign "**" :: afterUnary

/-- Tokens that go on with the operators of a level or what is inside them. -/
def afterTier (level : Nat) : List Token := (tiers.drop level).flatten ++ afterExponent

/-- Tokens that go on with an assignment or what is inside it. -/
def afterAssignment : List Token := assignments ++ .sign "?" :: afterTier 0

/-- What the reader does with the tokens of a derivation. -/
def Found : Goal → List Token → Tree → Prop
  | .expression, ts, t => ∀ rest result, Stops afterAssignment rest →
    Finds (.commas t) rest result → Finds .expression (ts ++ rest) result
  | .assignment, ts, t => ∀ rest, Stops afterAssignment rest →
    Finds .assignment (ts ++ rest) (t, rest)
  | .conditional, ts, t => ∀ rest, Stops afterAssignment rest →
    Finds .conditional (ts ++ rest) (t, rest)
  | .tier level, ts, t => ∀ rest result, Stops (afterTier (level + 1)) rest →
    Finds (.operators level t) rest result → Finds (.tier level) (ts ++ rest) result
  | .exponent, ts, t => ∀ rest, Stops afterExponent rest → Finds .exponent (ts ++ rest) (t, rest)
  | .unary, ts, t | .update, ts, t => ∀ rest, Stops afterUnary rest →
    Finds .unary (ts ++ rest) (t, rest)
  | .left, ts, t => ∀ rest, Stops (suffixSigns true) rest →
    Finds (.accessed true) (ts ++ rest) (t, rest)
  | .call, ts, t => ∀ rest result, Finds (.suffixes true t) rest result →
    Finds (.accessed true) (ts ++ rest) result
  | .new, ts, t => ∀ calls rest, Stops (suffixSigns true) rest →
    Finds (.accessed calls) (ts ++ rest) (t, rest)
  | .member, ts, t => ∀ calls rest result, Finds (.suffixes calls t) rest result →
    Finds (.accessed calls) (ts ++ rest) result
  | .primary, ts, t => ∀ rest, Finds .base (ts ++ rest) (t, rest)
  | .items, ts, t => ∀ close rest, close ∈ [Token.sign ")", .sign "]"] →
    Finds .items (ts ++ close :: rest) (t, close :: rest)
  | .entries, ts, t => ∀ rest, Finds .entries (ts ++ .sign "\x7d" :: rest) (t, .sign "\x7d" :: rest)

/-! ## Tokens that do not go on -/

theorem operatorsAt_subset_flatten (level : Nat) : operatorsAt level ⊆ (tiers.drop level).flatten := by
  intro op mem
  unfold operatorsAt at mem
  cases found : tiers[level]? with
  | none => simp [found] at mem
  | some ops =>
      rw [found] at mem
      refine List.mem_flatten.mpr ⟨ops, ?_, mem⟩
      obtain ⟨inside, rfl⟩ := List.getElem?_eq_some_iff.mp found
      rw [List.drop_eq_getElem_cons inside]
      exact List.mem_cons_self

theorem operatorsAt_subset (level : Nat) : operatorsAt level ⊆ afterTier level :=
  List.subset_append_of_subset_left _ (operatorsAt_subset_flatten level)

theorem afterTier_succ_subset (level : Nat) : afterTier (level + 1) ⊆ afterTier level := by
  intro op mem
  rcases List.mem_append.mp mem with inside | below
  · obtain ⟨ops, among, listed⟩ := List.mem_flatten.mp inside
    refine List.mem_append_left _ (List.mem_flatten.mpr ⟨ops, ?_, listed⟩)
    exact (List.drop_sublist_drop_left _ (Nat.le_succ level)).subset among
  · exact List.mem_append_right _ below

theorem afterTier_subset (level : Nat) : afterTier level ⊆ afterTier 0 := by
  induction level with
  | zero => exact List.Subset.refl _
  | succ level ih => exact fun op mem => ih (afterTier_succ_subset level mem)

theorem afterExponent_subset (level : Nat) : afterExponent ⊆ afterTier level :=
  List.subset_append_right _ _

theorem not_mem_afterTier {level : Nat} {op : Token} (known : op ∈ operatorsAt level) :
    op ∉ afterTier (level + 1) := by
  have small : level < tiers.length := by
    by_contra large
    rw [operatorsAt, List.getElem?_eq_none (by omega)] at known
    simp at known
  have table : ∀ level < tiers.length, ∀ op ∈ operatorsAt level, op ∉ afterTier (level + 1) := by
    decide
  exact table level small op known

theorem not_mem_of_assignment {op : Token} (known : op ∈ assignments) :
    op ∉ suffixSigns true ∧ op ∉ updates ∧ op ≠ .sign "**" ∧ op ∉ afterTier 0 ∧
      op ≠ .sign "?" := by
  have table : ∀ op ∈ assignments, op ∉ suffixSigns true ∧ op ∉ updates ∧ op ≠ .sign "**" ∧
      op ∉ afterTier 0 ∧ op ≠ .sign "?" := by
    decide
  exact table op known

/-- A bracket, comma or colon ends every assignment. -/
theorem stops_closing {close : Token} {rest : List Token}
    (known : close ∈ [Token.sign ")", .sign "]", .sign "\x7d", .sign ",", .sign ":"]) :
    Stops afterAssignment (close :: rest) := by
  have table : ∀ close ∈ [Token.sign ")", .sign "]", .sign "\x7d", .sign ",", .sign ":"],
      close ∉ afterAssignment := by
    decide
  exact stops_cons (table close known)

/-! ## From one form to the next looser one -/

theorem stops_of_begins {goal : Goal} {ts us rest : List Token} {t : Tree}
    (derives : Derives goal us t) (full : goal.isFull = true)
    (free : ∀ op ∈ ts, goal.begins op = false) : Stops ts (us ++ rest) := by
  obtain ⟨first, more, rfl, begins⟩ := derives.begins full
  refine stops_cons fun mem => ?_
  rw [free first mem] at begins
  cases begins

/-- An operand is found as a conditional if no operator is behind it. -/
theorem finds_conditional_of_unary {ts rest : List Token} {t : Tree}
    (noPower : Stops [.sign "**"] rest) (noOperator : ∀ level, Stops (operatorsAt level) rest)
    (noQuestion : Stops [.sign "?"] rest) (found : Finds .unary ts (t, rest)) :
    Finds .conditional ts (t, rest) := by
  -- the levels of operators, from the tightest to the loosest
  have tier : ∀ level ≤ tiers.length, Finds (.tier level) ts (t, rest) := by
    intro level bounded
    induction bounded using Nat.decreasingInduction with
    | self => exact finds_lastTier (finds_noExponent noPower found) (finds_noOperator (noOperator _))
    | of_succ level inside ih => exact finds_tier inside ih (finds_noOperator (noOperator level))
  exact finds_noCondition noQuestion (tier 0 (Nat.zero_le _))

/-- A member expression is found as a conditional if nothing goes on with it. -/
theorem finds_conditional_of_left {ts rest : List Token} {t : Tree}
    (plain : Stops unaries ts) (plain' : Stops updates ts) (stops : Stops (afterTier 0) rest)
    (stops' : Stops [.sign "?"] rest) (found : Finds (.accessed true) ts (t, rest)) :
    Finds .conditional ts (t, rest) := by
  have below : Stops afterExponent rest := stops.mono (afterExponent_subset 0)
  refine finds_conditional_of_unary (below.mono (by simp [afterExponent])) ?_ stops' ?_
  · intro level
    exact stops.mono fun op mem => afterTier_subset level (operatorsAt_subset level mem)
  · refine finds_noUpdate plain plain' (below.mono ?_) found
    intro op mem
    exact List.mem_cons_of_mem _ (List.mem_append_left _ mem)

theorem Found.assignment_of_closing {ts rest : List Token} {t : Tree} {close : Token}
    (found : Found .assignment ts t)
    (known : close ∈ [Token.sign ")", .sign "]", .sign "\x7d", .sign ",", .sign ":"]) :
    Finds .assignment (ts ++ close :: rest) (t, close :: rest) :=
  found _ (stops_closing known)

theorem Found.expression_of_closing {ts rest : List Token} {t : Tree} {close : Token}
    (found : Found .expression ts t) (known : close ∈ [Token.sign ")", .sign "]"]) :
    Finds .expression (ts ++ close :: rest) (t, close :: rest) := by
  have among : close ∈ [Token.sign ")", .sign "]", .sign "\x7d", .sign ",", .sign ":"] := by
    simp only [List.mem_cons, List.not_mem_nil, or_false] at known ⊢
    exact known.imp_right .inl
  refine found _ _ (stops_closing among) (finds_noComma (stops_cons ?_))
  simp only [List.mem_cons, List.not_mem_nil, or_false] at known ⊢
  rcases known with rfl | rfl <;> decide

/-- The reader finds every derivation. -/
theorem Derives.found {goal : Goal} {ts : List Token} {t : Tree} (derives : Derives goal ts t) :
    Found goal ts t := by
  induction derives with
  | noComma _ ih =>
      intro rest result stops further
      exact finds_expression (ih rest stops) further
  | comma _ _ ih ih' =>
      intro rest result stops further
      rw [List.append_assoc, List.cons_append]
      exact ih _ _ (stops_closing (by decide)) (finds_comma (ih' rest stops) further)
  | noAssignment _ ih =>
      intro rest stops
      exact finds_noAssignment (stops.mono (List.subset_append_left _ _)) (ih rest stops)
  | assign derives target known _ ih ih' =>
      intro rest stops
      rw [List.append_assoc, List.cons_append]
      obtain ⟨noSuffix, -, -, noOperator, noQuestion⟩ := not_mem_of_assignment known
      refine finds_assign known target ?_ (ih' rest stops)
      refine finds_conditional_of_left ?_ ?_ (stops_cons noOperator) ?_ (ih _ (stops_cons noSuffix))
      · exact stops_of_begins derives rfl (by decide)
      · exact stops_of_begins derives rfl (by decide)
      · exact stops_cons (by simpa using noQuestion)
  | noCondition _ ih =>
      intro rest stops
      have stops' : Stops (afterTier 0) rest := stops.mono fun op mem =>
        List.mem_append_right _ (List.mem_cons_of_mem _ mem)
      refine finds_noCondition (stops.mono (by simp [afterAssignment])) ?_
      refine ih rest _ (stops'.mono (afterTier_succ_subset 0)) ?_
      exact finds_noOperator (stops'.mono (operatorsAt_subset 0))
  | conditional _ _ _ ih ih' ih'' =>
      intro rest stops
      simp only [List.append_assoc, List.cons_append]
      refine finds_conditional ?_ (ih'.assignment_of_closing (by decide)) (ih'' rest stops)
      exact ih _ _ (stops_cons (by decide)) (finds_noOperator (stops_cons (by decide)))
  | @noOperator level ts t inside _ ih =>
      intro rest result stops further
      refine finds_tier inside (ih rest _ (stops.mono (afterTier_succ_subset _)) ?_) further
      exact finds_noOperator (stops.mono (operatorsAt_subset _))
  | @operator level ops ts us op first second known mem _ _ ih ih' =>
      intro rest result stops further
      have listed : op ∈ operatorsAt level := by simpa [operatorsAt, known] using mem
      rw [List.append_assoc, List.cons_append]
      refine ih _ _ (stops_cons (not_mem_afterTier listed)) (finds_operator listed ?_ further)
      refine ih' rest _ (stops.mono (afterTier_succ_subset _)) ?_
      exact finds_noOperator (stops.mono (operatorsAt_subset _))
  | lastTier _ ih =>
      intro rest result stops further
      exact finds_lastTier (ih rest (stops.mono (afterExponent_subset _))) further
  | noExponent _ ih =>
      intro rest stops
      refine finds_noExponent (stops.mono (by simp [afterExponent])) (ih rest (stops.mono ?_))
      exact List.subset_cons_self _ _
  | exponent _ _ ih ih' =>
      intro rest stops
      rw [List.append_assoc, List.cons_append]
      exact finds_exponent (ih _ (stops_cons (by decide))) (ih' rest stops)
  | noUnary _ ih => exact ih
  | unary known _ ih =>
      intro rest stops
      exact finds_unary known (ih rest stops)
  | noUpdate derives ih =>
      intro rest stops
      refine finds_noUpdate ?_ ?_ (stops.mono (List.subset_append_left _ _))
        (ih rest (stops.mono (List.subset_append_right _ _)))
      · exact stops_of_begins derives rfl (by decide)
      · exact stops_of_begins derives rfl (by decide)
  | updateBehind derives _ known ih =>
      intro rest stops
      rw [List.append_assoc, List.singleton_append]
      have noSuffix : ∀ op ∈ updates, op ∉ suffixSigns true := by decide
      refine finds_behind known ?_ ?_ (ih _ (stops_cons (noSuffix _ known)))
      · exact stops_of_begins derives rfl (by decide)
      · exact stops_of_begins derives rfl (by decide)
  | updateBefore known _ _ ih =>
      intro rest stops
      exact finds_before known (ih rest stops)
  | leftNew _ ih => exact ih true
  | leftCall _ ih =>
      intro rest stops
      exact ih rest _ (finds_noSuffix stops)
  | call _ _ ih ih' =>
      intro rest result further
      rw [List.append_assoc, List.cons_append, List.append_assoc, List.singleton_append]
      exact ih true _ _ (finds_call (ih' _ _ (by decide)) further)
  | callCall _ _ ih ih' =>
      intro rest result further
      rw [List.append_assoc, List.cons_append, List.append_assoc, List.singleton_append]
      exact ih _ _ (finds_call (ih' _ _ (by decide)) further)
  | callIndex _ _ ih ih' =>
      intro rest result further
      rw [List.append_assoc, List.cons_append, List.append_assoc, List.singleton_append]
      exact ih _ _ (finds_index (ih'.expression_of_closing (by decide)) further)
  | callField _ ih =>
      intro rest result further
      rw [List.append_assoc, List.cons_append, List.singleton_append]
      exact ih _ _ (finds_field further)
  | newMember _ ih =>
      intro calls rest stops
      refine ih calls rest _ (finds_noSuffix (stops.mono ?_))
      cases calls <;> decide
  | newBare _ ih =>
      intro calls rest stops
      refine finds_accessed (finds_newBare (stops.mono (by decide)) (ih false rest stops)) ?_
      refine finds_noSuffix (stops.mono ?_)
      cases calls <;> decide
  | memberNew _ _ ih ih' =>
      intro calls rest result further
      rw [List.cons_append, List.append_assoc, List.cons_append, List.append_assoc,
        List.singleton_append]
      refine finds_accessed (finds_new (ih false _ _ ?_) (ih' _ _ (by decide))) further
      exact finds_noSuffix (stops_cons (by decide))
  | memberIndex _ _ ih ih' =>
      intro calls rest result further
      rw [List.append_assoc, List.cons_append, List.append_assoc, List.singleton_append]
      exact ih calls _ _ (finds_index (ih'.expression_of_closing (by decide)) further)
  | memberField _ ih =>
      intro calls rest result further
      rw [List.append_assoc, List.cons_append, List.singleton_append]
      exact ih calls _ _ (finds_field further)
  | memberPrimary _ ih =>
      intro calls rest result further
      exact finds_accessed (ih rest) further
  | name free =>
      intro rest
      have noConstant : ∀ spelling ∈ constants, spelling ∈ keywords := by decide
      refine finds_atom ?_ ?_
      · rw [atom?, if_neg fun mem => free (noConstant _ mem)]
      · rintro ⟨⟩
        exact free (by decide)
  | constant known =>
      intro rest
      refine finds_atom (by rw [atom?, if_pos known]) ?_
      rintro ⟨⟩
      exact absurd known (by decide)
  | number => exact fun rest => finds_atom rfl (by simp)
  | text => exact fun rest => finds_atom rfl (by simp)
  | array _ ih =>
      intro rest
      rw [List.cons_append, List.append_assoc, List.singleton_append]
      exact finds_array (ih _ _ (by decide))
  | object _ ih =>
      intro rest
      rw [List.cons_append, List.append_assoc, List.singleton_append]
      exact finds_object (ih rest)
  | parenthesized _ ih =>
      intro rest
      rw [List.cons_append, List.append_assoc, List.singleton_append]
      exact finds_parenthesized (ih.expression_of_closing (by decide))
  | noItem => exact fun close rest known => finds_noItem known
  | lastItem derives ih =>
      intro close rest known
      refine finds_lastItem (stops_of_begins derives rfl (by decide)) (stops_cons ?_)
        (ih.assignment_of_closing ?_)
      all_goals
        simp only [List.mem_cons, List.not_mem_nil, or_false] at known ⊢
        rcases known with rfl | rfl <;> decide
  | nextItem derives _ ih ih' =>
      intro close rest known
      rw [List.append_assoc, List.cons_append]
      exact finds_nextItem (stops_of_begins derives rfl (by decide))
        (ih.assignment_of_closing (by decide)) (ih' close rest known)
  | noEntry => exact fun rest => finds_noEntry
  | lastEntry known _ ih =>
      intro rest
      exact finds_lastEntry known (stops_cons (by decide)) (ih.assignment_of_closing (by decide))
  | nextEntry known _ _ ih ih' =>
      intro rest
      rw [List.cons_append, List.cons_append, List.append_assoc, List.cons_append]
      exact finds_nextEntry known (ih.assignment_of_closing (by decide)) (ih' rest)

/-- The reader finds an expression that nothing follows. -/
theorem Derives.finds {ts : List Token} {t : Tree} (derives : Derives .expression ts t) :
    Finds .expression ts (t, []) := by
  have ends : ∀ {ops : List Token}, Stops ops [] := fun _ head => by cases head
  have found := derives.found [] _ ends (finds_noComma ends)
  rwa [List.append_nil] at found

/-- A sequence of tokens is an expression in at most one way. -/
theorem Derives.unique {ts : List Token} {first second : Tree}
    (derives : Derives .expression ts first) (derives' : Derives .expression ts second) :
    first = second :=
  congrArg Prod.fst (derives.finds.unique derives'.finds)

end Qalam.EcmaScript

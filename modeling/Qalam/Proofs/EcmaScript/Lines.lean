/-
# The names in the lines of a program

The text of a program is read line by line. A line is a whole number of tokens, and what it does
to the frames and names depends only on the brackets that are open before it. So lines can be
put one after the other, and the text of a whole program has just the names that the layout of the
program gives.
-/

import Mathlib.Data.List.Forall2
import Qalam.Proofs.EcmaScript.Layout
import Qalam.Proofs.Structure.Branches

namespace Qalam.EcmaScript

open Layout (bare map_map_append map_nil_append)
open EcmaScript.Scan (Mode Level Place)
open Scoping (Event Mark)
open Scoping.Walk (framed binding parameters)

/-- Lines lead from one mode and open brackets to others and meet some events on the way. -/
def Leads (lines : List String) (before after : Mode × List Level) (events : List (Event Mark)) :
    Prop :=
  ∃ tss, List.Forall₂ (Lexes anyChar) lines tss ∧
    ∀ place, place ≠ .member → ∃ place', place' ≠ .member ∧ ∀ rest,
      Scan.tokens ⟨before.1, before.2, place⟩ (tss.flatten ++ rest) =
        (Scan.tokens ⟨after.1, after.2, place'⟩ rest).map (bare events ++ ·)

/-! ### Texts that several lines share -/

theorem lexes_semicolon : Lexes anyChar ";" [.sign ";"] :=
  @lexes_closed ";" [] [';'] (by decide) (by decide)

theorem lexes_equals : Lexes anyChar " = " [.sign "="] :=
  lexes_spaced (by decide)

/-- What opens a body behind parentheses. -/
theorem lexes_body : Lexes anyChar ") \x7b" [.sign ")", .sign "\x7b"] :=
  @lexes_closed ") \x7b" [.sign ")"] ['\x7b'] (by decide) (by decide)

theorem lexes_if : Lexes anyChar "if (" [.word "if", .sign "("] :=
  @lexes_closed "if (" [.word "if"] ['('] (by decide) (by decide)

theorem lexes_switch : Lexes anyChar "switch (" [.word "switch", .sign "("] :=
  @lexes_closed "switch (" [.word "switch"] ['('] (by decide) (by decide)

theorem lexes_for : Lexes anyChar "for (let " [.word "for", .sign "(", .word "let"] :=
  lexes_spaced (by decide)

theorem lexes_lines {lines : List String} {tss : List (List Token)}
    (lexes : List.Forall₂ (Lexes anyChar) lines tss) :
    Lexes anyChar ("\n".intercalate lines) tss.flatten := by
  have feed : Lexes anyChar "\n" [] := lexes_spaced (by decide)
  induction lexes with
  | nil => exact lexes_nothing
  | @cons line ts others tss first further ih =>
      cases others with
      | nil =>
          cases further
          simpa using first
      | cons second others =>
          rw [String.intercalate_cons_cons, List.flatten_cons]
          simpa using (first.then feed).then ih

/-- A margin has no tokens. -/
theorem lexes_margin (margin : JavaScript.Margin) {text : String} {ts : List Token}
    (lexes : Lexes anyChar text ts) : Lexes anyChar (margin.line text) ts := by
  have blanks : ∀ n, run .gap (List.replicate n ' ') = some ([], .gap) := by
    intro n
    induction n with
    | zero => rfl
    | succ n ih =>
        rw [List.replicate_succ, run]
        simp [show step .gap ' ' = some ([], .gap) by decide, ih]
  have spaces := @lexes_spaced (String.ofList (List.replicate (margin.width * margin.level) ' '))
    [] (by rw [String.toList_ofList]; exact blanks _)
  exact spaces.then lexes

namespace Leads

variable {before middle after : Mode × List Level} {lines others : List String}
  {events further : List (Event Mark)}

theorem nil : Leads [] before before [] := by
  refine ⟨[], .nil, fun place other => ⟨place, other, fun rest => ?_⟩⟩
  simp

theorem append (here : Leads lines before middle events)
    (there : Leads others middle after further) :
    Leads (lines ++ others) before after (events ++ further) := by
  obtain ⟨tss, lexes, scans⟩ := here
  obtain ⟨tss', lexes', scans'⟩ := there
  refine ⟨tss ++ tss', List.rel_append lexes lexes', fun place other => ?_⟩
  obtain ⟨place', other', first⟩ := scans place other
  obtain ⟨place'', other'', second⟩ := scans' place' other'
  refine ⟨place'', other'', fun rest => ?_⟩
  rw [List.flatten_append, List.append_assoc, first, second, map_map_append, Layout.bare_append]

theorem cast (leads : Leads lines before after events) (same : events = further) :
    Leads lines before after further := same ▸ leads

/-- What whole lines do to a whole text. -/
theorem scopes (leads : Leads lines (.free false, []) (.free false, []) events) :
    ∃ ts, lex ("\n".intercalate lines) = some ts ∧ EcmaScript.scopes ts = some (bare events) := by
  obtain ⟨tss, lexes, scans⟩ := leads
  refine ⟨tss.flatten, (lexes_lines lexes).lex, ?_⟩
  obtain ⟨place, -, whole⟩ := scans .other (by simp)
  have ends := whole []
  rw [List.append_nil] at ends
  rw [EcmaScript.scopes, Scan.State.initial, ends]
  simp [Scan.tokens]

/-- A single line. -/
theorem line (margin : JavaScript.Margin) {text : String} {ts : List Token}
    (lexes : Lexes anyChar text ts)
    (scans : ∀ place, place ≠ .member → ∃ place', place' ≠ .member ∧ ∀ rest,
      Scan.tokens ⟨before.1, before.2, place⟩ (ts ++ rest) =
        (Scan.tokens ⟨after.1, after.2, place'⟩ rest).map (bare events ++ ·)) :
    Leads [margin.line text] before after events := by
  refine ⟨[ts], .cons (lexes_margin margin lexes) .nil, ?_⟩
  simpa using scans

/-- A single line before which the place does not matter. -/
theorem plain (margin : JavaScript.Margin) (place' : Place) {text : String} {ts : List Token}
    (lexes : Lexes anyChar text ts) (start : Scan.isPlainStart ts = true)
    (other : place' ≠ .member)
    (scans : ∀ rest, Scan.tokens ⟨before.1, before.2, .other⟩ (ts ++ rest) =
      (Scan.tokens ⟨after.1, after.2, place'⟩ rest).map (bare events ++ ·)) :
    Leads [margin.line text] before after events := by
  refine line margin lexes fun place known => ⟨place', other, fun rest => ?_⟩
  rw [Scan.tokens_start start known, scans]

/-- The line that closes a body. -/
theorem closing (margin : JavaScript.Margin) {mode behind : Mode} {levels : List Level}
    (frames : Nat) :
    Leads [margin.line "\x7d"] (mode, ⟨"\x7d", frames, behind⟩ :: levels) (behind, levels)
      (List.replicate frames .closes) := by
  refine plain margin .other (@lexes_closed "\x7d" [] ['\x7d'] (by decide) (by decide)) rfl
    (by simp) fun rest => ?_
  rw [List.nil_append, List.singleton_append, Scan.tokens_close (by decide)]
  simp [bare, Event.map]

/-- A body between the line that opens it and the line that closes it. -/
theorem enclosed (margin : JavaScript.Margin) {mode behind : Mode} {levels : List Level}
    {frames : Nat} {header : String}
    (here : Leads [header] before (mode, ⟨"\x7d", frames, behind⟩ :: levels) events)
    (there : Leads lines (mode, ⟨"\x7d", frames, behind⟩ :: levels)
      (mode, ⟨"\x7d", frames, behind⟩ :: levels) further) :
    Leads (header :: lines ++ [margin.line "\x7d"]) before (behind, levels)
      (events ++ (further ++ List.replicate frames Event.closes)) :=
  here.append (there.append (closing margin frames))

end Leads

/-! ## Lines -/

/-- An expression whose text has the right tokens and the right names. -/
structure Emitted (e : Expr) : Prop where
  read : Read e
  scans : Layout.Scans e

/-- Tokens with commas between them. -/
def separated : List (List Token) → List Token
  | [] => []
  | [last] => last
  | first :: others => first ++ .sign "," :: separated others

theorem lexes_separated {texts : List String} {tss : List (List Token)}
    (lexes : List.Forall₂ (Lexes endsNumber) texts tss) :
    Lexes endsNumber (", ".intercalate texts) (separated tss) := by
  induction lexes with
  | nil => exact lexes_nothing
  | @cons text ts others tss first further ih =>
      cases further with
      | nil => simpa [separated] using first
      | cons second further =>
          rw [String.intercalate_cons_cons, separated]
          · simpa using (first.before lexes_comma rfl rfl).then ih
          · simp

theorem lexes_params {params : List Parameter} (words : ∀ param ∈ params, IsWord param.name) :
    Lexes endsNumber (JavaScript.params params)
      (separated (params.map fun param => [.word param.name])) := by
  refine lexes_separated ?_
  rw [List.forall₂_map_left_iff, List.forall₂_map_right_iff, List.forall₂_same]
  exact fun param mem => (lexes_word (words param mem)).loosen

/-- Parameters up to the parenthesis that closes them. -/
theorem scans_params {inClass : Bool} {levels : List Level} {rest : List Token} :
    ∀ {params : List Parameter} {place : Place}, place ≠ .member →
      Scan.tokens ⟨.names, ⟨")", 0, .body inClass⟩ :: levels, place⟩
          (separated (params.map fun param => [.word param.name]) ++ .sign ")" :: rest) =
        (Scan.tokens ⟨.body inClass, levels, .other⟩ rest).map (bare (parameters params) ++ ·)
  | [], place, other => Scan.tokens_close (by decide)
  | [param], place, other => by
      rw [List.map_singleton, separated, List.singleton_append,
        Scan.tokens_name other (by simp), Scan.tokens_close_silent (by decide)]
      rfl
  | param :: param' :: others, place, other => by
      rw [List.map_cons, separated, List.append_assoc, List.singleton_append, List.cons_append,
        Scan.tokens_name other (by simp), Scan.tokens_next (.inl rfl), scans_params (by simp),
        map_map_append]
      · rfl
      · simp

/-- The tokens of a declared name and its value. -/
def declared : Binding × Option Expr → List Token
  | (name, some value) => .word name.name :: .sign "=" :: tokens value
  | (name, none) => [.word name.name, .sign "=", .word "undefined"]

/-- A declared name and its value can be read. -/
def Declarable (entry : Binding × Option Expr) : Prop :=
  IsWord entry.1.name ∧ ∀ e, entry.2 = some e → Emitted e

theorem lexes_declarator {entry : Binding × Option Expr} (declarable : Declarable entry) :
    Lexes endsNumber (JavaScript.declarator entry) (declared entry) := by
  obtain ⟨name, value⟩ := entry
  obtain ⟨word, emitted⟩ := declarable
  have missing : IsWord "undefined" := isWord_of (by decide) (by decide)
  have front := (lexes_word word).before lexes_equals rfl rfl
  cases value with
  | some e => exact front.then (emitted e rfl).read.text
  | none => exact front.then (lexes_word missing).loosen

theorem scans_declarator {entry : Binding × Option Expr} (declarable : Declarable entry)
    {levels : List Level} {place : Place} (other : place ≠ .member) {rest : List Token} :
    Scan.tokens ⟨.names, levels, place⟩ (declared entry ++ rest) =
      (Scan.tokens ⟨.free true, levels, .other⟩ rest).map
        (bare (Layout.declarator entry) ++ ·) := by
  obtain ⟨name, value⟩ := entry
  obtain ⟨-, emitted⟩ := declarable
  cases value with
  | some e =>
      rw [declared, List.cons_append, List.cons_append, Scan.tokens_name other (by simp),
        Scan.tokens_gives, (emitted e rfl).scans.anywhere, map_map_append]
      rfl
  | none =>
      rw [declared, List.cons_append, List.cons_append, List.singleton_append,
        Scan.tokens_name other (by simp), Scan.tokens_gives,
        Scan.tokens_mention (by simp) (by simp) (by decide), map_map_append]
      rfl

theorem separated_start {entries : List (Binding × Option Expr)} (nonempty : entries ≠ []) :
    ∃ name others, separated (entries.map declared) = .word name :: others := by
  have start : ∀ entry, ∃ name others, declared entry = .word name :: others := by
    rintro ⟨name, _ | e⟩ <;> exact ⟨name.name, _, rfl⟩
  match entries, nonempty with
  | [entry], _ => exact start entry
  | entry :: entry' :: others, _ =>
      obtain ⟨name, behind, same⟩ := start entry
      rw [List.map_cons, separated, same]
      · exact ⟨name, _, rfl⟩
      · simp

/-- Declared names up to the semicolon behind them. -/
theorem scans_declarators {levels : List Level} {rest : List Token} :
    ∀ {entries : List (Binding × Option Expr)} {place : Place}, entries ≠ [] →
      (∀ entry ∈ entries, Declarable entry) → place ≠ .member →
      Scan.tokens ⟨.names, levels, place⟩
          (separated (entries.map declared) ++ .sign ";" :: rest) =
        (Scan.tokens ⟨.free false, levels, .other⟩ rest).map
          (bare (entries.flatMap Layout.declarator) ++ ·)
  | [], place, nonempty, _, _ => absurd rfl nonempty
  | [entry], place, _, declarable, other => by
      rw [List.map_singleton, separated, scans_declarator (declarable entry (by simp)) other,
        Scan.tokens_semicolon, List.flatMap_singleton]
  | entry :: entry' :: others, place, _, declarable, other => by
      rw [List.forall_mem_cons] at declarable
      rw [List.map_cons, separated, List.append_assoc, List.cons_append,
        scans_declarator declarable.1 other, Scan.tokens_next (.inr rfl),
        scans_declarators (by simp) declarable.2 (by simp), map_map_append, ← Layout.bare_append]
      · rfl
      · simp

namespace Leads

variable (margin : JavaScript.Margin) {levels : List Level} {e : Expr}

/-- A line that opens a body behind an expression in parentheses. -/
theorem condition (emitted : Emitted e) {before : Mode × List Level} {opening : String}
    {front : List Token} {events : List (Event Mark)}
    (lexes : Lexes anyChar opening (front ++ [Token.sign "("]))
    (start : Scan.isPlainStart (front ++ [Token.sign "("]) = true)
    (scans : ∀ rest, Scan.tokens ⟨before.1, before.2, .other⟩ (front ++ rest) =
      (Scan.tokens ⟨.free false, levels, .other⟩ rest).map (bare events ++ ·)) :
    Leads [margin.line (opening ++ JavaScript.expr e ++ ") \x7b")] before
      (.free false, ⟨"\x7d", 1, .free false⟩ :: levels)
      (events ++ (Layout.expr e ++ [Event.opens])) := by
  have whole := (lexes.then emitted.read.text).before lexes_body rfl rfl
  have start' : Scan.isPlainStart (front ++ [Token.sign "("] ++ tokens e ++
      ([Token.sign ")"] ++ [Token.sign "\x7b"])) = true := by
    rw [List.append_assoc]
    exact Scan.isPlainStart_append start _
  refine plain margin .key whole start' (by simp) fun rest => ?_
  simp only [List.append_assoc, List.cons_append, List.nil_append]
  rw [scans, Scan.tokens_round, emitted.scans.anywhere, Scan.tokens_close_silent (by decide),
    Scan.tokens_curly, map_map_append, map_map_append]
  simp [bare, Event.map]

/-- A line that opens a body behind a keyword and an expression in parentheses. -/
theorem keywordHeader (emitted : Emitted e) {opening word : String}
    (lexes : Lexes anyChar opening [.word word, .sign "("]) (keyword : word ∈ keywords)
    (idle : word ∉ ["let", "const", "function", "class", "catch", "for"]) :
    Leads [margin.line (opening ++ JavaScript.expr e ++ ") \x7b")] (.free false, levels)
      (.free false, ⟨"\x7d", 1, .free false⟩ :: levels) (Layout.expr e ++ [Event.opens]) := by
  refine @condition margin levels e emitted (.free false, levels) opening [.word word] [] lexes rfl
    fun rest => ?_
  rw [List.singleton_append, Scan.tokens_keyword (by simp) (by simp) keyword idle,
    Layout.bare_nil, map_nil_append]

theorem elseIfHeader (emitted : Emitted e) :
    Leads [margin.line ("\x7d else if (" ++ JavaScript.expr e ++ ") \x7b")]
      (.free false, ⟨"\x7d", 1, .free false⟩ :: levels)
      (.free false, ⟨"\x7d", 1, .free false⟩ :: levels)
      (.closes :: (Layout.expr e ++ [Event.opens])) := by
  have lexes := @lexes_closed "\x7d else if (" [.sign "\x7d", .word "else", .word "if"] ['(']
    (by decide) (by decide)
  refine @condition margin levels e emitted (.free false, ⟨"\x7d", 1, .free false⟩ :: levels) _
    [.sign "\x7d", .word "else", .word "if"] [.closes] lexes rfl fun rest => ?_
  simp only [List.cons_append, List.nil_append]
  rw [Scan.tokens_close (by decide),
    Scan.tokens_keyword (by simp) (by simp) (by decide) (by decide),
    Scan.tokens_keyword (by simp) (by simp) (by decide) (by decide)]
  rfl

theorem tryBody :
    Leads [margin.line "try \x7b"] (.free false, levels)
      (.free false, ⟨"\x7d", 1, .free false⟩ :: levels) [.opens] := by
  refine plain margin .key (@lexes_closed "try \x7b" [.word "try"] ['\x7b'] (by decide) (by decide))
    rfl (by simp) fun rest => ?_
  rw [List.append_assoc, List.singleton_append, List.singleton_append,
    Scan.tokens_keyword (by simp) (by simp) (by decide) (by decide)]
  exact Scan.tokens_curly

theorem handler {name : Binding} (word : IsWord name.name) :
    Leads [margin.line ("\x7d catch (" ++ name.name ++ ") \x7b")]
      (.free false, ⟨"\x7d", 1, .free false⟩ :: levels)
      (.free false, ⟨"\x7d", 2, .free false⟩ :: levels)
      [.closes, .opens, binding name, .opens] := by
  have front := @lexes_closed "\x7d catch (" [.sign "\x7d", .word "catch"] ['(']
    (by decide) (by decide)
  have whole := (front.then (lexes_word word)).before lexes_body rfl rfl
  refine plain margin .key whole rfl (by simp) fun rest => ?_
  simp only [List.cons_append, List.nil_append]
  rw [Scan.tokens_close (by decide), Scan.tokens_catch, Scan.tokens_header, if_pos rfl,
    Scan.tokens_name (by simp) (by simp), Scan.tokens_close_silent (by decide), Scan.tokens_body,
    map_map_append, map_map_append, map_map_append]
  simp [bare, Event.map, binding]

theorem otherwise :
    Leads [margin.line "\x7d else \x7b"] (.free false, ⟨"\x7d", 1, .free false⟩ :: levels)
      (.free false, ⟨"\x7d", 1, .free false⟩ :: levels) [.closes, .opens] := by
  refine plain margin .key
    (@lexes_closed "\x7d else \x7b" [.sign "\x7d", .word "else"] ['\x7b'] (by decide) (by decide))
    rfl (by simp) fun rest => ?_
  simp only [List.cons_append, List.nil_append]
  rw [Scan.tokens_close (by decide),
    Scan.tokens_keyword (by simp) (by simp) (by decide) (by decide), Scan.tokens_curly,
    map_map_append]
  rfl

/-- A line that opens a function behind its parameters. -/
theorem functionHeader {before : Mode × List Level} {opening : String} {front : List Token}
    {params : List Parameter} {inClass : Bool} {events : List (Event Mark)}
    (words : ∀ param ∈ params, IsWord param.name) (lexes : Lexes endsWord opening front)
    (start : Scan.isPlainStart (front ++ [Token.sign "("]) = true)
    (scans : ∀ rest, Scan.tokens ⟨before.1, before.2, .other⟩ (front ++ rest) =
      (Scan.tokens ⟨.head true inClass, levels, .other⟩ rest).map (bare events ++ ·)) :
    Leads [margin.line (opening ++ "(" ++ JavaScript.params params ++ ") \x7b")] before
      (.free false, ⟨"\x7d", 2, if inClass then .members else .free false⟩ :: levels)
      (events ++ (Event.opens :: (parameters params ++ [Event.opens]))) := by
  have signature := (lexes.before lexes_opening rfl rfl).then (lexes_params words)
  have whole := signature.before lexes_body rfl rfl
  refine plain margin .key whole ?_ (by simp) fun rest => ?_
  · rw [List.append_assoc]
    exact Scan.isPlainStart_append start _
  · simp only [List.append_assoc, List.cons_append, List.nil_append]
    rw [scans, Scan.tokens_header, if_pos rfl, scans_params (by simp), Scan.tokens_body,
      map_map_append, map_map_append, map_map_append]
    simp [bare, Event.map]

theorem classHeader {name : Binding} (word : IsWord name.name) :
    Leads [margin.line ("class " ++ name.name ++ " \x7b")] (.free false, levels)
      (.members, ⟨"\x7d", 1, .free false⟩ :: levels) [binding name, .opens] := by
  have front : Lexes anyChar "class " [.word "class"] := lexes_spaced (by decide)
  have body := @lexes_closed " \x7b" [] ['\x7b'] (by decide) (by decide)
  have whole := (front.then (lexes_word word)).before body rfl rfl
  refine plain margin .key whole rfl (by simp) fun rest => ?_
  simp only [List.cons_append, List.nil_append]
  rw [Scan.tokens_class]
  rfl

theorem forHeader {name : Binding} {init condition step : Expr} (word : IsWord name.name)
    (first : Emitted init) (second : Emitted condition) (third : Emitted step) :
    Leads [margin.line ("for (let " ++ name.name ++ " = " ++ JavaScript.expr init ++ "; " ++
        JavaScript.expr condition ++ "; " ++ JavaScript.expr step ++ ") \x7b")]
      (.free false, levels) (.free false, ⟨"\x7d", 2, .free false⟩ :: levels)
      (.opens :: binding name :: (Layout.expr init ++ (Layout.expr condition ++
        (Layout.expr step ++ [Event.opens])))) := by
  have semicolon : Lexes anyChar "; " [.sign ";"] := lexes_spaced (by decide)
  have counter := (lexes_for.then (lexes_word word)).before lexes_equals rfl rfl
  have declares := counter.then first.read.text
  have tests := (declares.before semicolon rfl rfl).then second.read.text
  have whole := ((tests.before semicolon rfl rfl).then third.read.text).before lexes_body rfl rfl
  have keyword (rest : List Token) :
      Scan.tokens ⟨.free false, ⟨")", 0, .body false⟩ :: levels, .other⟩ (.word "let" :: rest) =
        Scan.tokens ⟨.names, ⟨")", 0, .body false⟩ :: levels, .other⟩ rest :=
    Scan.tokens_let false
  refine plain margin .key whole rfl (by simp) fun rest => ?_
  simp only [List.append_assoc, List.cons_append, List.nil_append]
  rw [Scan.tokens_for, Scan.tokens_header, if_neg Bool.false_ne_true, keyword,
    Scan.tokens_name (by simp) (by simp), Scan.tokens_gives, first.scans.anywhere,
    Scan.tokens_semicolon, second.scans.anywhere, Scan.tokens_semicolon, third.scans.anywhere,
    Scan.tokens_close_silent (by decide), Scan.tokens_body]
  simp only [map_map_append]
  simp [bare, Event.map, binding]

theorem forOfHeader {name : Binding} {iterable : Expr} (word : IsWord name.name)
    (emitted : Emitted iterable) :
    Leads [margin.line ("for (let " ++ name.name ++ " of " ++ JavaScript.expr iterable ++
        ") \x7b")]
      (.free false, levels) (.free false, ⟨"\x7d", 2, .free false⟩ :: levels)
      (.opens :: binding name :: (Layout.expr iterable ++ [Event.opens])) := by
  have of : Lexes anyChar " of " [.word "of"] := lexes_spaced (by decide)
  have declares := (lexes_for.then (lexes_word word)).before of rfl rfl
  have whole := (declares.then emitted.read.text).before lexes_body rfl rfl
  have keyword (rest : List Token) :
      Scan.tokens ⟨.free false, ⟨")", 0, .body false⟩ :: levels, .other⟩ (.word "let" :: rest) =
        Scan.tokens ⟨.names, ⟨")", 0, .body false⟩ :: levels, .other⟩ rest :=
    Scan.tokens_let false
  refine plain margin .key whole rfl (by simp) fun rest => ?_
  simp only [List.append_assoc, List.cons_append, List.nil_append]
  rw [Scan.tokens_for, Scan.tokens_header, if_neg Bool.false_ne_true, keyword,
    Scan.tokens_name (by simp) (by simp), Scan.tokens_of, emitted.scans.anywhere,
    Scan.tokens_close_silent (by decide), Scan.tokens_body]
  simp only [map_map_append]
  simp [bare, Event.map, binding]

theorem case (emitted : Emitted e) :
    Leads [margin.line ("case " ++ JavaScript.expr e ++ ":")] (.free false, levels)
      (.free false, levels) (Layout.expr e) := by
  have front : Lexes anyChar "case " [.word "case"] := lexes_spaced (by decide)
  have colon := @lexes_closed ":" [] [':'] (by decide) (by decide)
  have whole := (front.then emitted.read.text).before colon rfl rfl
  obtain ⟨first, others, same, noColon⟩ := Layout.tokens_start e
  refine plain margin .other whole (by simp [same, noColon, Scan.isPlainStart]) (by simp)
    fun rest => ?_
  simp only [List.append_assoc, List.cons_append, List.nil_append]
  rw [Scan.tokens_keyword (by simp) (by simp) (by decide) (by decide), emitted.scans.anywhere,
    Scan.tokens_operator (by decide)]

theorem default :
    Leads [margin.line "default:"] (.free false, levels) (.free false, levels) [] := by
  refine line margin (@lexes_closed "default:" [.word "default"] [':'] (by decide) (by decide))
    fun place other => ⟨.other, by simp, fun rest => ?_⟩
  have colon {place : Place} : Scan.tokens ⟨.free false, levels, place⟩ (.sign ":" :: rest) =
      Scan.tokens ⟨.free false, levels, .other⟩ rest :=
    Scan.tokens_operator (by decide)
  rw [List.append_assoc, List.singleton_append, List.singleton_append, Layout.bare_nil,
    map_nil_append]
  -- Behind an opening brace the word is taken for a key, which is no name either.
  cases place with
  | member => exact absurd rfl other
  | key => exact (Scan.tokens_key rfl).trans colon
  | other =>
      exact (Scan.tokens_keyword (by simp) (by simp) (by decide) (by decide)).trans colon

/-- A line that is nothing but a keyword. -/
theorem command {text word : String} (lexes : Lexes anyChar text [.word word, .sign ";"])
    (keyword : word ∈ keywords)
    (idle : word ∉ ["let", "const", "function", "class", "catch", "for"]) :
    Leads [margin.line text] (.free false, levels) (.free false, levels) [] := by
  refine plain margin .other lexes rfl (by simp) fun rest => ?_
  rw [List.cons_append, List.singleton_append, Scan.tokens_keyword (by simp) (by simp) keyword idle,
    Scan.tokens_semicolon, Layout.bare_nil, map_nil_append]

theorem returns (emitted : Emitted e) :
    Leads [margin.line ("return " ++ JavaScript.expr e ++ ";")] (.free false, levels)
      (.free false, levels) (Layout.expr e) := by
  have front : Lexes anyChar "return " [.word "return"] := lexes_spaced (by decide)
  have whole := (front.then emitted.read.text).before lexes_semicolon rfl rfl
  obtain ⟨first, others, same, noColon⟩ := Layout.tokens_start e
  refine plain margin .other whole (by simp [same, noColon, Scan.isPlainStart]) (by simp)
    fun rest => ?_
  simp only [List.append_assoc, List.cons_append, List.nil_append]
  rw [Scan.tokens_keyword (by simp) (by simp) (by decide) (by decide), emitted.scans.anywhere,
    Scan.tokens_semicolon]

theorem print (pos : Position) (emitted : Emitted e) :
    Leads [margin.line ("console.log(" ++ JavaScript.expr e ++ ");")] (.free false, levels)
      (.free false, levels) (.mentions "console" ⟨pos, none⟩ :: Layout.expr e) := by
  have front := @lexes_closed "console.log(" [.word "console", .sign ".", .word "log"] ['(']
    (by decide) (by decide)
  have behind := @lexes_closed ");" [.sign ")"] [';'] (by decide) (by decide)
  have whole := (front.then emitted.read.text).before behind rfl rfl
  refine plain margin .other whole rfl (by simp) fun rest => ?_
  simp only [List.append_assoc, List.cons_append, List.nil_append]
  rw [Scan.tokens_mention (by simp) (by simp) (by decide), Scan.tokens_point, Scan.tokens_field,
    Scan.tokens_round, emitted.scans.anywhere, Scan.tokens_close_silent (by decide),
    Scan.tokens_semicolon, map_map_append]
  rfl

theorem expression (emitted : Emitted e) :
    Leads [margin.line (JavaScript.expr e ++ ";")] (.free false, levels) (.free false, levels)
      (Layout.expr e) := by
  refine line margin (emitted.read.text.before lexes_semicolon rfl rfl) fun place other =>
    ⟨.other, by simp, fun rest => ?_⟩
  rw [List.append_assoc, emitted.scans _ _ _ _ other (by simp)]
  exact congrArg _ Scan.tokens_semicolon

theorem assign {value : Expr} (target : Emitted e) (emitted : Emitted value) :
    Leads [margin.line (JavaScript.expr e ++ " = " ++ JavaScript.expr value ++ ";")]
      (.free false, levels) (.free false, levels) (Layout.expr e ++ Layout.expr value) := by
  have whole := ((target.read.text.before lexes_equals rfl rfl).then emitted.read.text).before
    lexes_semicolon rfl rfl
  refine line margin whole fun place other => ⟨.other, by simp, fun rest => ?_⟩
  simp only [List.append_assoc, List.cons_append, List.nil_append]
  rw [target.scans _ _ _ _ other (by simp), Scan.tokens_operator (by decide),
    emitted.scans.anywhere, Scan.tokens_semicolon, map_map_append, Layout.bare_append]

theorem declarations (constant : Bool) {entries : List (Binding × Option Expr)}
    (nonempty : entries ≠ []) (declarable : ∀ entry ∈ entries, Declarable entry) :
    Leads [margin.line (JavaScript.declarationWord constant ++ " " ++
        ", ".intercalate (entries.map JavaScript.declarator) ++ ";")]
      (.free false, levels) (.free false, levels) (entries.flatMap Layout.declarator) := by
  have front : Lexes anyChar (JavaScript.declarationWord constant ++ " ")
      [.word (JavaScript.declarationWord constant)] := by
    cases constant <;> exact lexes_spaced (by decide)
  have list : Lexes endsNumber (", ".intercalate (entries.map JavaScript.declarator))
      (separated (entries.map declared)) := by
    refine lexes_separated ?_
    rw [List.forall₂_map_left_iff, List.forall₂_map_right_iff, List.forall₂_same]
    exact fun entry mem => lexes_declarator (declarable entry mem)
  refine plain margin .other ((front.then list).before lexes_semicolon rfl rfl) ?_ (by simp)
    fun rest => ?_
  · obtain ⟨name, others, same⟩ := separated_start nonempty
    rw [same]
    rfl
  · simp only [List.append_assoc, List.cons_append, List.nil_append]
    rw [Scan.tokens_let, scans_declarators nonempty declarable (by simp)]

theorem declaration (constant : Bool) {name : Binding} {init : Option Expr}
    (declarable : Declarable (name, init)) :
    Leads [margin.line (JavaScript.declaration constant name init)] (.free false, levels)
      (.free false, levels) (Layout.declaration constant name init) := by
  unfold JavaScript.declaration Layout.declaration
  split
  · have front : Lexes anyChar "let " [.word "let"] := lexes_spaced (by decide)
    have whole := (front.then (lexes_word declarable.1)).before lexes_semicolon rfl rfl
    have keyword (rest : List Token) :
        Scan.tokens ⟨.free false, levels, .other⟩ (.word "let" :: rest) =
          Scan.tokens ⟨.names, levels, .other⟩ rest :=
      Scan.tokens_let false
    refine plain margin .other whole rfl (by simp) fun rest => ?_
    simp only [List.cons_append, List.nil_append]
    rw [keyword, Scan.tokens_name (by simp) (by simp), Scan.tokens_declared]
    rfl
  · have single := @declarations margin levels constant _ (List.cons_ne_nil (name, init) [])
      (List.forall_mem_singleton.mpr declarable)
    simpa using single

end Leads

/-! ## Programs under their names -/

namespace Leads

variable {names : Naming.Names} (proper : names.Proper)

include proper

theorem nameable_expr {x : Expr} (checked : x.Checked) : Layout.Nameable (names.expr x) := by
  cases x with
  | ident note name entity =>
      cases entity with
      | some id => exact fun mem => proper.free id (keywords_subset mem)
      | none => cases checked.2
  | _ => trivial

theorem emitted {e : Expr} (checked : ∀ x ∈ Parts.expr e, x.Checked) : Emitted (names.expr e) := by
  refine ⟨Read.expr ?_, Layout.scans_expr ?_⟩
  · rw [names.parts_expr, List.forall_mem_map]
    exact fun x mem => legible_expr proper (checked x mem)
  · rw [names.parts_expr, List.forall_mem_map]
    exact fun x mem => nameable_expr proper (checked x mem)

theorem word_binding (name : Binding) : IsWord (names.ofBinding name).name :=
  isWord_identifier proper _ _

theorem word_parameters (params : List Parameter) :
    ∀ param ∈ params.map names.ofParameter, IsWord param.name := by
  rw [List.forall_mem_map]
  exact fun param _ => isWord_identifier proper _ _

theorem declarable {entry : Binding × Option Expr}
    (checked : ∀ x ∈ Parts.optional entry.2, x.Checked) : Declarable (names.declarator entry) := by
  obtain ⟨name, value⟩ := entry
  refine ⟨word_binding proper name, fun e same => ?_⟩
  cases value with
  | none => cases same
  | some value =>
      cases same
      exact emitted proper checked

omit proper

mutual

theorem statement (proper : names.Proper) (margin : JavaScript.Margin) (levels : List Level) :
    ∀ {s : Statement}, (∀ x ∈ Parts.statement s, x.Checked) → (∀ n ∈ Branches.statement s, 0 < n) →
    Leads (JavaScript.statement margin (names.statement s)) (.free false, levels)
      (.free false, levels) (Layout.statement (names.statement s))
  | .declare pos constant name init, checked, _ => by
      rw [Naming.Names.statement, JavaScript.statement, Layout.statement]
      exact declaration margin constant (@declarable _ proper (name, init) checked)
  | .declareAll pos constant entries, checked, counted => by
      rw [Naming.Names.statement, JavaScript.statement, Layout.statement]
      refine declarations margin constant ?_ ?_
      · rw [Branches.statement, List.forall_mem_singleton, List.length_pos_iff] at counted
        simpa using counted
      · rw [List.forall_mem_map]
        refine fun entry mem => declarable proper fun x inside => checked x ?_
        exact List.mem_flatMap.mpr ⟨entry, mem, inside⟩
  | .assign pos target value, checked, _ => by
      rw [Parts.statement, List.forall_mem_append] at checked
      rw [Naming.Names.statement, JavaScript.statement, Layout.statement]
      exact assign margin (emitted proper checked.1) (emitted proper checked.2)
  | .tryCatch pos body name onError, checked, counted => by
      rw [Parts.statement, List.forall_mem_append] at checked
      rw [Branches.statement, List.forall_mem_append] at counted
      rw [Naming.Names.statement, JavaScript.statement, Layout.statement]
      have tried := (@tryBody margin levels).append
        (block proper margin.deeper _ checked.1 counted.1)
      have caught := (@handler margin levels _ (word_binding proper name)).enclosed margin
        (block proper margin.deeper _ checked.2 counted.2)
      rw [List.append_assoc]
      refine (tried.append caught).cast ?_
      simp [framed]
  | .classDef pos name (some initialiser) bodyPos members, checked, counted => by
      rw [Parts.statement, List.forall_mem_append] at checked
      rw [Branches.statement, List.forall_mem_append] at counted
      rw [Naming.Names.statement, JavaScript.statement, Layout.statement]
      have inside := (constructor proper margin.deeper (⟨"\x7d", 1, .free false⟩ :: levels)
        checked.1 counted.1).append (methods proper margin.deeper _ checked.2 counted.2)
      have whole := (classHeader margin (word_binding proper name)).enclosed margin inside
      rw [List.cons_append]
      refine whole.cast ?_
      simp [framed]
  | .classDef pos name none bodyPos members, checked, counted => by
      rw [Naming.Names.statement, JavaScript.statement, Layout.statement]
      have whole := (classHeader margin (word_binding proper name)).enclosed margin
        (methods proper margin.deeper (⟨"\x7d", 1, .free false⟩ :: levels) checked counted)
      refine whole.cast ?_
      simp [framed]
  | .function (.mk pos name params body), checked, counted => by
      rw [Naming.Names.statement, JavaScript.statement, JavaScript.function, Layout.statement]
      have front : Lexes anyChar "function " [.word "function"] := lexes_spaced (by decide)
      have header := @functionHeader margin levels (.free false, levels) _ _
        (params.map names.ofParameter) false [binding (names.ofBinding name)]
        (word_parameters proper params) (front.then (lexes_word (word_binding proper name))) rfl
        fun rest => Scan.tokens_function
      refine (header.enclosed margin (block proper margin.deeper _ checked counted)).cast ?_
      simp [framed]
  | .ifElse pos [] (some otherwise), _, counted => by simp [Branches.statement] at counted
  | .ifElse pos [] none, _, counted => by simp [Branches.statement] at counted
  | .ifElse pos (.mk armPos test body :: others) (some otherwise), checked, counted => by
      simp only [Parts.statement, Parts.arms, Parts.arm, List.forall_mem_append] at checked
      simp only [Branches.statement, Branches.arms, Branches.arm, List.forall_mem_cons,
        List.forall_mem_append] at counted
      obtain ⟨⟨⟨ofTest, ofBody⟩, ofOthers⟩, ofOtherwise⟩ := checked
      obtain ⟨-, ⟨inBody, inOthers⟩, inOtherwise⟩ := counted
      rw [Naming.Names.statement, Naming.Names.arms, JavaScript.statement, JavaScript.ifArms,
        JavaScript.ifArm, Layout.statement, Layout.arms, List.append_assoc]
      have header := @keywordHeader margin levels _ (emitted proper ofTest) _ _ lexes_if
        (by decide) (by decide)
      have first := header.append (block proper margin.deeper _ ofBody inBody)
      obtain ⟨events, same, further⟩ := arms proper margin levels ofOthers inOthers
      have last := (@Leads.otherwise margin levels).enclosed margin
        (block proper margin.deeper _ ofOtherwise inOtherwise)
      refine ((first.append further).append last).cast ?_
      simp [framed, same]
  | .ifElse pos (.mk armPos test body :: others) none, checked, counted => by
      simp only [Parts.statement, Parts.arms, Parts.arm, List.forall_mem_append] at checked
      simp only [Branches.statement, Branches.arms, Branches.arm, List.forall_mem_cons,
        List.forall_mem_append] at counted
      obtain ⟨⟨ofTest, ofBody⟩, ofOthers⟩ := checked
      obtain ⟨-, inBody, inOthers⟩ := counted
      rw [Naming.Names.statement, Naming.Names.arms, JavaScript.statement, JavaScript.ifArms,
        JavaScript.ifArm, Layout.statement, Layout.arms]
      have header := @keywordHeader margin levels _ (emitted proper ofTest) _ _ lexes_if
        (by decide) (by decide)
      have first := header.append (block proper margin.deeper _ ofBody inBody)
      obtain ⟨events, same, further⟩ := arms proper margin levels ofOthers inOthers
      refine ((first.append further).append (closing margin 1)).cast ?_
      simp [framed, same]
  | .whileLoop pos condition body, checked, counted => by
      rw [Parts.statement, List.forall_mem_append] at checked
      rw [Naming.Names.statement, JavaScript.statement, Layout.statement]
      have lexes := @lexes_closed "while (" [.word "while"] ['('] (by decide) (by decide)
      have header := @keywordHeader margin levels _ (emitted proper checked.1) _ _ lexes
        (by decide) (by decide)
      refine (header.enclosed margin (block proper margin.deeper _ checked.2 counted)).cast ?_
      simp [framed]
  | .forLoop pos name init condition step body, checked, counted => by
      simp only [Parts.statement, List.forall_mem_append] at checked
      obtain ⟨first, second, third, inside⟩ := checked
      rw [Naming.Names.statement, JavaScript.statement, Layout.statement]
      have header := @forHeader margin levels _ _ _ _ (word_binding proper name)
        (emitted proper first) (emitted proper second) (emitted proper third)
      refine (header.enclosed margin (block proper margin.deeper _ inside counted)).cast ?_
      simp [framed]
  | .forOf pos name iterable body, checked, counted => by
      rw [Parts.statement, List.forall_mem_append] at checked
      rw [Naming.Names.statement, JavaScript.statement, Layout.statement]
      have header := @forOfHeader margin levels _ _ (word_binding proper name)
        (emitted proper checked.1)
      refine (header.enclosed margin (block proper margin.deeper _ checked.2 counted)).cast ?_
      simp [framed]
  | .switch pos selector alternatives (some otherwise), checked, counted => by
      simp only [Parts.statement, List.forall_mem_append] at checked
      rw [Branches.statement, List.forall_mem_append] at counted
      rw [Naming.Names.statement, JavaScript.statement, Layout.statement]
      have header := @keywordHeader margin levels _ (emitted proper checked.1) _ _ lexes_switch
        (by decide) (by decide)
      have inside := (cases proper margin.deeper (⟨"\x7d", 1, .free false⟩ :: levels) checked.2.1
        counted.1).append ((default margin.deeper).append
          (block proper margin.deeper.deeper _ checked.2.2 counted.2))
      refine (header.enclosed margin inside).cast ?_
      simp [framed]
  | .switch pos selector alternatives none, checked, counted => by
      rw [Parts.statement, List.forall_mem_append] at checked
      rw [Naming.Names.statement, JavaScript.statement, Layout.statement]
      have header := @keywordHeader margin levels _ (emitted proper checked.1) _ _ lexes_switch
        (by decide) (by decide)
      refine (header.enclosed margin (cases proper margin.deeper _ checked.2 counted)).cast ?_
      simp [framed]
  | .returns pos (some value), checked, _ => by
      rw [Naming.Names.statement, Naming.Names.optional, Option.map_some, JavaScript.statement,
        Layout.statement]
      exact returns margin (emitted proper checked)
  | .returns pos none, _, _ => by
      rw [Naming.Names.statement, Naming.Names.optional, Option.map_none, JavaScript.statement,
        Layout.statement]
      exact command margin (@lexes_closed "return;" [.word "return"] [';'] (by decide) (by decide))
        (by decide) (by decide)
  | .print pos argument, checked, _ => by
      rw [Naming.Names.statement, JavaScript.statement, Layout.statement]
      exact print margin pos (emitted proper checked)
  | .breakLoop pos, _, _ => by
      rw [Naming.Names.statement, JavaScript.statement, Layout.statement]
      exact command margin (@lexes_closed "break;" [.word "break"] [';'] (by decide) (by decide))
        (by decide) (by decide)
  | .continueLoop pos, _, _ => by
      rw [Naming.Names.statement, JavaScript.statement, Layout.statement]
      exact command margin
        (@lexes_closed "continue;" [.word "continue"] [';'] (by decide) (by decide))
        (by decide) (by decide)
  | .expr pos e, checked, _ => by
      rw [Naming.Names.statement, JavaScript.statement, Layout.statement]
      exact expression margin (emitted proper checked)

theorem statements (proper : names.Proper) (margin : JavaScript.Margin) (levels : List Level) :
    ∀ {body : List Statement}, (∀ x ∈ Parts.statements body, x.Checked) →
    (∀ n ∈ Branches.statements body, 0 < n) →
    Leads (JavaScript.statements margin (names.statements body)) (.free false, levels)
      (.free false, levels) (Layout.statements (names.statements body))
  | [], _, _ => nil
  | first :: others, checked, counted => by
      rw [Parts.statements, List.forall_mem_append] at checked
      rw [Branches.statements, List.forall_mem_append] at counted
      rw [Naming.Names.statements, JavaScript.statements, Layout.statements]
      exact (statement proper margin levels checked.1 counted.1).append
        (statements proper margin levels checked.2 counted.2)

theorem block (proper : names.Proper) (margin : JavaScript.Margin) (levels : List Level) :
    ∀ {body : Block}, (∀ x ∈ Parts.block body, x.Checked) → (∀ n ∈ Branches.block body, 0 < n) →
    Leads (JavaScript.block margin (names.block body)) (.free false, levels)
      (.free false, levels) (Layout.block (names.block body))
  | .mk pos body, checked, counted => by
      rw [Naming.Names.block, JavaScript.block, Layout.block]
      exact statements proper margin levels checked counted

theorem methods (proper : names.Proper) (margin : JavaScript.Margin) (levels : List Level) :
    ∀ {members : List Function}, (∀ x ∈ Parts.functions members, x.Checked) →
    (∀ n ∈ Branches.functions members, 0 < n) →
    Leads (JavaScript.methods margin (names.methods members)) (.members, levels)
      (.members, levels) (Layout.methods (names.methods members))
  | [], _, _ => nil
  | .mk pos name params body :: others, checked, counted => by
      rw [Parts.functions, List.forall_mem_append] at checked
      rw [Branches.functions, List.forall_mem_append] at counted
      rw [Naming.Names.methods, JavaScript.methods, JavaScript.function, Layout.methods]
      have word : IsWord (names.ofMethod name).name := isWord_of_usable (proper.field name.name)
      have header := @functionHeader margin levels (.members, levels) ("" ++ _) _
        (params.map names.ofParameter) true [] (word_parameters proper params)
        (lexes_nothing.then (lexes_word word)) rfl
        fun rest => by simpa using Scan.tokens_member
      have whole := header.enclosed margin (block proper margin.deeper _ checked.1 counted.1)
      refine (whole.append (methods proper margin levels checked.2 counted.2)).cast ?_
      simp [framed]

theorem constructor (proper : names.Proper) (margin : JavaScript.Margin) (levels : List Level) :
    ∀ {initialiser : Constructor}, (∀ x ∈ Parts.constructor initialiser, x.Checked) →
    (∀ n ∈ Branches.constructor initialiser, 0 < n) →
    Leads (JavaScript.constructor margin (names.constructor initialiser)) (.members, levels)
      (.members, levels) (Layout.constructor (names.constructor initialiser))
  | .mk pos params body, checked, counted => by
      rw [Naming.Names.constructor, JavaScript.constructor, Layout.constructor]
      have word : IsWord "constructor" := isWord_of (by decide) (by decide)
      have header := @functionHeader margin levels (.members, levels) _ _
        (params.map names.ofParameter) true [] (word_parameters proper params)
        (lexes_word word) rfl fun rest => by simpa using Scan.tokens_member
      refine (header.enclosed margin (block proper margin.deeper _ checked counted)).cast ?_
      simp [framed]

theorem cases (proper : names.Proper) (margin : JavaScript.Margin) (levels : List Level) :
    ∀ {alternatives : List Arm}, (∀ x ∈ Parts.arms alternatives, x.Checked) →
    (∀ n ∈ Branches.arms alternatives, 0 < n) →
    Leads (JavaScript.switchArms margin (names.arms alternatives)) (.free false, levels)
      (.free false, levels) (Layout.cases (names.arms alternatives))
  | [], _, _ => nil
  | .mk pos test body :: others, checked, counted => by
      simp only [Parts.arms, Parts.arm, List.forall_mem_append] at checked
      rw [Branches.arms, List.forall_mem_append] at counted
      rw [Naming.Names.arms, JavaScript.switchArms, JavaScript.switchArm, Layout.cases]
      have first := (case margin (emitted proper checked.1.1)).append
        (block proper margin.deeper levels checked.1.2 counted.1)
      refine (first.append (cases proper margin levels checked.2 counted.2)).cast ?_
      simp

/-- The further alternatives of an `if`, each behind the brace that closes the one before. -/
theorem arms (proper : names.Proper) (margin : JavaScript.Margin) (levels : List Level) :
    ∀ {alternatives : List Arm}, (∀ x ∈ Parts.arms alternatives, x.Checked) →
    (∀ n ∈ Branches.arms alternatives, 0 < n) →
    ∃ events, (∀ rest, events ++ Event.closes :: rest =
        Event.closes :: (Layout.arms (names.arms alternatives) ++ rest)) ∧
      Leads (JavaScript.ifArms margin "\x7d else if (" (names.arms alternatives))
        (.free false, ⟨"\x7d", 1, .free false⟩ :: levels)
        (.free false, ⟨"\x7d", 1, .free false⟩ :: levels) events
  | [], _, _ => ⟨[], fun _ => rfl, nil⟩
  | .mk pos test body :: others, checked, counted => by
      simp only [Parts.arms, Parts.arm, List.forall_mem_append] at checked
      rw [Branches.arms, List.forall_mem_append] at counted
      obtain ⟨events, same, further⟩ := arms proper margin levels checked.2 counted.2
      rw [Naming.Names.arms, JavaScript.ifArms, JavaScript.ifArm, Layout.arms]
      have first := (@elseIfHeader margin levels _ (emitted proper checked.1.1)).append
        (block proper margin.deeper _ checked.1.2 counted.1)
      refine ⟨_, fun rest => ?_, first.append further⟩
      simp [framed, same]

end

end Leads

end Qalam.EcmaScript

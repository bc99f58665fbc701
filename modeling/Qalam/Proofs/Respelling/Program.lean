/-
# Spelling does not matter

The names of a program that was read are names that its text spells. If they are exchanged for
others, then the program is bound as before, and without an oracle the same JavaScript comes out.
Different names have to stay different. Names that are written like constants are excluded, because
as keys of object literals they cannot be told from these.
-/

import Qalam.Proofs.Checking.Rebinding
import Qalam.Proofs.Layout.Concatenation
import Qalam.Proofs.Relabelling.Binding
import Qalam.Proofs.Respelling.Keys
import Qalam.Proofs.Respelling.Naming
import Qalam.Proofs.Structure.Formed

namespace Qalam

open Relabel

/-! ## Names that were read -/

/-- A name in a tree is the name of a token that the tree was read from. -/
theorem Node.Formed.exists_word {ts : List Token} {node : Node} (formed : node.Formed ts)
    {name : String} (named : node.name? = some name) : ∃ token ∈ ts, token.kind = .ident name := by
  obtain ⟨used, inside, read⟩ := formed.read
  have found : ∃ pos, [Grammar.word name pos] <:+: used := by
    cases node with
    | expr e =>
        obtain ⟨level, derives, -⟩ := read
        cases e with
        | ident note spelled entity =>
            cases named
            have led : Expr.LedBy used (.ident note name entity) := derives.led
            exact ⟨_, led.name _ _ _ rfl⟩
        | _ => cases named
    | binding | parameter | field =>
        cases named
        rw [read]
        exact ⟨_, List.infix_rfl⟩
    | _ => cases named
  obtain ⟨pos, word⟩ := found
  exact ⟨_, inside.subset (word.subset List.mem_cons_self), rfl⟩

/-- The names of a program are such as a text can spell. -/
theorem isName_of_mem_names {source : String} {program : Program}
    (parsed : parseSource source = .ok program) : ∀ name ∈ program.names, IsName name := by
  intro name mem
  obtain ⟨node, listed, named⟩ := List.mem_filterMap.mp mem
  obtain ⟨tokens, lexed, read⟩ := parseSource_ok.mp parsed
  obtain ⟨used, rest, rfl, forms⟩ := Program.exists_forms read
  obtain ⟨token, found, kind⟩ := (forms.formed node listed).exists_word named
  exact Scan.isName_of_tokensFrom lexed (List.mem_append_left rest found) kind

/-! ## Respelled programs -/

/-- A program that was read is bound in the same way when its names are exchanged for others: with
the same entities and tags, or with the same fault at the same place, in which only the name is
another one. Without an oracle the generated text is the same. -/
theorem Program.bind_respell {source : String} {program : Program}
    (parsed : parseSource source = .ok program) {r : String → String}
    (injective : Set.InjOn r {name | name ∈ program.names})
    (image : ∀ name ∈ program.names, IsName (r name))
    (before : ∀ name ∈ program.names, name ∉ constantTexts)
    (after : ∀ name ∈ program.names, r name ∉ constantTexts) :
    let change := respell program.names r
    (change.program program).bind =
        (program.bind.map change.boundProgram).mapError change.semanticError ∧
      ∀ bound, program.bind = .ok bound → ∀ indent,
        (change.boundProgram bound).program.generate .silent indent =
          bound.program.generate .silent indent := by
  intro change
  have respells : Respells program.names r :=
    ⟨fun name mem => ⟨isName_of_mem_names parsed name mem, before name mem⟩,
      fun name mem => ⟨image name mem, after name mem⟩, injective⟩
  have separates : change.Separates program.names := injective
  have suits : ∀ node ∈ program.nodes, change.Suits change.key program.names node :=
    fun node mem => respells.suits (program.namedIn_names node mem)
  refine ⟨Program.bind_relabel separates suits, fun bound bind indent => ?_⟩
  obtain ⟨tokens, -, read⟩ := parseSource_ok.mp parsed
  have stripped : strip.program bound.program = program := by
    rw [← Program.strip_of_ofTokens read]
    exact congrArg Program.mk (Program.kept_of_bind bind).same
  have answers := Naming.answers_respell separates fun _ => rfl
  apply Program.generate_relabel answers Naming.Table.respelled_empty
  rw [stripped]
  exact program.namedIn_names

/-- The tokens of an object and an access to one of its fields. -/
def namesTokens : List Token :=
  [⟨.keyword .letKw, ⟨1, 1⟩⟩, ⟨.ident "ا", ⟨1, 4⟩⟩, ⟨.symbol .eq, ⟨1, 5⟩⟩,
    ⟨.symbol .lbrace, ⟨1, 6⟩⟩, ⟨.ident "ب", ⟨1, 7⟩⟩, ⟨.symbol .colon, ⟨1, 8⟩⟩,
    ⟨.int 1, ⟨1, 9⟩⟩, ⟨.symbol .rbrace, ⟨1, 10⟩⟩, ⟨.symbol .semi, ⟨1, 11⟩⟩,
    ⟨.ident "ا", ⟨1, 12⟩⟩, ⟨.symbol .dot, ⟨1, 13⟩⟩, ⟨.ident "ب", ⟨1, 14⟩⟩,
    ⟨.symbol .semi, ⟨1, 15⟩⟩, ⟨.eof, ⟨1, 16⟩⟩]

/-- An object and an access to one of its fields, with names for the variable and the field. -/
def accessProgram (name field : String) : Program :=
  ⟨[.declare ⟨1, 1⟩ false ⟨name, ⟨1, 4⟩, none⟩
      (some (.object (.at ⟨1, 6⟩) [.mk ⟨1, 7⟩ (.ident (.at ⟨1, 7⟩) field none)
        (.literal (.at ⟨1, 9⟩) (.int 1)) none])),
    .expr ⟨1, 12⟩ (.property (.at ⟨1, 12⟩) (.ident (.at ⟨1, 12⟩) name none)
      ⟨field, .at ⟨1, 14⟩⟩)]⟩

/-- Two names exchanged. -/
def exchange (name : String) : String := if name = "ا" then "ب" else "ا"

theorem Program.bind_respell_exchange :
    let program := accessProgram "ا" "ب"
    let change := respell program.names exchange
    change.program program = accessProgram "ب" "ا" ∧
      ∃ bound, program.bind = .ok bound ∧
        (accessProgram "ب" "ا").bind = .ok (change.boundProgram bound) ∧
        ∀ indent, (change.boundProgram bound).program.generate .silent indent =
          bound.program.generate .silent indent := by
  intro program change
  have lexed : tokenize "دع ا=\x7bب:1\x7d؛ا.ب؛" = .ok namesTokens := by cbv
  have parsed : parseSource "دع ا=\x7bب:1\x7d؛ا.ب؛" = .ok program :=
    parseSource_ok.mpr ⟨_, lexed, rfl⟩
  have names : program.names = ["ا", "ب", "ب", "ا"] := rfl
  have distinct : ∀ first ∈ program.names, ∀ second ∈ program.names,
      exchange first = exchange second → first = second := by
    rw [names]
    decide
  have injective : Set.InjOn exchange {name | name ∈ program.names} :=
    fun _ mem _ mem' same => distinct _ mem _ mem' same
  have image : ∀ name ∈ program.names, IsName (exchange name) := by
    rw [names]
    decide +kernel
  have before : ∀ name ∈ program.names, name ∉ constantTexts := by
    rw [names]
    decide
  have after : ∀ name ∈ program.names, exchange name ∉ constantTexts := by
    rw [names]
    decide
  obtain ⟨bind, generate⟩ := Program.bind_respell parsed injective image before after
  have bound : ∃ bound, program.bind = .ok bound := ⟨_, rfl⟩
  obtain ⟨bound, binds⟩ := bound
  rw [binds] at bind
  exact ⟨rfl, bound, binds, bind, generate bound binds⟩

end Qalam

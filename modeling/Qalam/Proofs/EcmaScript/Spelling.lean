/-
# How words, numbers and texts are read back

Each kind of constant and every usable name is one token of the generated text: what is read back
is what was written. A number is read back if the next character cannot belong to a number, a
name if it cannot belong to a name, and a text in quotes always.
-/

import Mathlib.Tactic.SplitIfs
import Qalam.Naming.Table
import Qalam.Proofs.EcmaScript.Lexer

namespace Qalam.EcmaScript

/-! ## Words -/

/-- A text that is read as one word. -/
def IsWord (name : String) : Prop :=
  ∃ c rest, name.toList = c :: rest ∧ beginsWord c = true ∧ ∀ d ∈ rest, isWordChar d = true

theorem run_word {rest : List Char} (continues : ∀ c ∈ rest, isWordChar c = true)
    (chars : List Char) : run (.word chars) rest = some ([], .word (chars ++ rest)) := by
  induction rest generalizing chars with
  | nil => simp [run]
  | cons c rest ih =>
      rw [List.forall_mem_cons] at continues
      rw [run, step, if_pos continues.1]
      simp [ih continues.2]

theorem isBlank_of_beginsWord {c : Char} (begins : beginsWord c = true) : isBlank c = false := by
  rw [Bool.eq_false_iff]
  intro blank
  simp only [isBlank, Bool.or_eq_true, decide_eq_true_eq] at blank
  rcases blank with ((rfl | rfl) | rfl) | rfl <;> revert begins <;> decide

theorem lexes_word {name : String} (word : IsWord name) : Lexes endsWord name [.word name] := by
  obtain ⟨c, rest, spelled, begins, continues⟩ := word
  have first : step .gap c = some ([], .word [c]) := by
    simp [step, change, finish, start, isBlank_of_beginsWord begins, begins]
  have reads : run .gap name.toList = some ([], .word name.toList) := by
    rw [spelled, run, first]
    simp [run_word continues]
  have ends : finish (.word name.toList) = some [.word name] := by simp [finish]
  refine lexes_of_run reads ends ?_
  intro d other
  rw [step, if_neg (by simpa [endsWord] using other)]

/-! ## Numbers -/

theorem isDigit_of_char {c : Char} (digit : c.isDigit = true) : isDigit c = true := by
  rw [Char.isDigit_iff_toNat] at digit
  simp only [isDigit, Bool.and_eq_true, decide_eq_true_eq]
  exact digit

theorem isDigit_of_mem_toDigits {n : Nat} {c : Char} (mem : c ∈ Nat.toDigits 10 n) :
    isDigit c = true :=
  isDigit_of_char (Nat.isDigit_of_mem_toDigits (by decide) (by decide) mem)

/-- The digits of a positive number do not begin with a zero. -/
theorem head_toDigits {n : Nat} (positive : 0 < n) : (Nat.toDigits 10 n).head? ≠ some '0' := by
  induction n using Nat.strongRecOn with
  | ind n ih =>
      by_cases small : n < 10
      · rw [Nat.toDigits_of_lt_base small]
        have : ∀ n : Nat, n < 10 → 0 < n → n.digitChar ≠ '0' := by decide
        simpa using this n small positive
      · have shorter := ih (n / 10) (by omega) (by omega)
        rw [Nat.toDigits_of_base_le (by decide) (by omega), List.head?_append]
        cases digits : Nat.toDigits 10 (n / 10) with
        | nil => exact absurd digits Nat.toDigits_ne_nil
        | cons digit others => simpa [digits] using shorter

/-- Digits that stand before the point of a number. -/
def IsWhole (chars : List Char) : Prop :=
  (∀ c ∈ chars, isDigit c = true) ∧ (chars = ['0'] ∨ chars ≠ [] ∧ chars.head? ≠ some '0')

theorem isWhole_toDigits (n : Nat) : IsWhole (Nat.toDigits 10 n) := by
  refine ⟨fun c mem => isDigit_of_mem_toDigits mem, ?_⟩
  rcases Nat.eq_zero_or_pos n with rfl | positive
  · exact .inl (Nat.toDigits_zero 10)
  · exact .inr ⟨Nat.toDigits_ne_nil, head_toDigits positive⟩

theorem step_gap_digit {c : Char} (digit : isDigit c = true) :
    step .gap c = some ([], .number [c]) := by
  have noBlank : isBlank c = false := by
    rw [Bool.eq_false_iff]
    intro blank
    simp only [isBlank, Bool.or_eq_true, decide_eq_true_eq] at blank
    rcases blank with ((rfl | rfl) | rfl) | rfl <;> revert digit <;> decide
  have noWord : beginsWord c = false := by
    rw [Bool.eq_false_iff]
    intro begins
    simp only [isDigit, Bool.and_eq_true, decide_eq_true_eq] at digit
    simp only [beginsWord, Bool.or_eq_true, Bool.and_eq_true, decide_eq_true_eq] at begins
    rcases begins with ((lower | upper) | rfl) | rfl
    · omega
    · omega
    · exact absurd digit (by decide)
    · exact absurd digit (by decide)
  simp [step, change, finish, start, noBlank, noWord, digit]

theorem run_number {rest : List Char} (digits : ∀ c ∈ rest, isDigit c = true) {chars : List Char}
    (proper : chars ≠ ['0'] ∨ rest = []) (nonempty : chars ≠ []) :
    run (.number chars) rest = some ([], .number (chars ++ rest)) := by
  induction rest generalizing chars with
  | nil => simp [run]
  | cons c rest ih =>
      rw [List.forall_mem_cons] at digits
      have notZero : chars ≠ ['0'] := by simpa using proper
      rw [run, step, if_pos digits.1, if_neg notZero]
      have longer : chars ++ [c] ≠ ['0'] := by
        intro same
        have size := congrArg List.length same
        simp only [List.length_append, List.length_cons, List.length_nil] at size
        exact nonempty (List.length_eq_zero_iff.mp (by omega))
      simp [ih digits.2 (.inl longer) (by simp)]

theorem run_whole {chars : List Char} (whole : IsWhole chars) :
    run .gap chars = some ([], .number chars) := by
  obtain ⟨digits, zero | ⟨nonempty, head⟩⟩ := whole
  · rw [zero]
    decide
  · cases chars with
    | nil => exact absurd rfl nonempty
    | cons c rest =>
        rw [List.forall_mem_cons] at digits
        have notZero : [c] ≠ ['0'] := by simpa using head
        rw [run, step_gap_digit digits.1]
        simp [run_number digits.2 (.inl notZero) (by simp)]

theorem run_fraction {rest : List Char} (digits : ∀ c ∈ rest, isDigit c = true)
    (chars : List Char) : run (.fraction chars) rest = some ([], .fraction (chars ++ rest)) := by
  induction rest generalizing chars with
  | nil => simp [run]
  | cons c rest ih =>
      rw [List.forall_mem_cons] at digits
      rw [run, step, if_pos digits.1]
      simp [ih digits.2]

/-- A text that is read as one number. -/
inductive IsNumber : String → Prop
  | whole {text : String} : IsWhole text.toList → IsNumber text
  | fractional {text : String} {whole fraction : List Char} :
      IsWhole whole → (∀ c ∈ fraction, isDigit c = true) →
      text.toList = whole ++ '.' :: fraction → IsNumber text

/-- A number begins with a digit. -/
theorem IsNumber.head? {text : String} (number : IsNumber text) :
    ∃ c, text.toList.head? = some c ∧ isDigit c = true := by
  have begins : ∀ {chars more : List Char}, IsWhole chars →
      ∃ c, (chars ++ more).head? = some c ∧ isDigit c = true := by
    rintro chars more ⟨digits, shape⟩
    cases chars with
    | nil => simp at shape
    | cons c rest => exact ⟨c, rfl, digits c List.mem_cons_self⟩
  cases number with
  | whole whole =>
      rw [← List.append_nil text.toList]
      exact begins whole
  | fractional whole _ spelled =>
      rw [spelled]
      exact begins whole

theorem lexes_number {text : String} (number : IsNumber text) :
    Lexes endsNumber text [.number text] := by
  have split : ∀ c, endsNumber c = true → isDigit c = false ∧ c ≠ '.' ∧ beginsWord c = false := by
    intro c ends
    simp only [endsNumber, isWordChar, Bool.and_eq_true, Bool.not_eq_true', Bool.or_eq_false_iff,
      decide_eq_true_eq] at ends
    exact ⟨ends.1.2, ends.2, ends.1.1⟩
  cases number with
  | whole whole =>
      have ends : finish (.number text.toList) = some [.number text] := by simp [finish]
      refine lexes_of_run (run_whole whole) ends ?_
      intro c ends
      obtain ⟨noDigit, noPoint, noWord⟩ := split c ends
      simp [step, noDigit, noPoint, noWord]
  | @fractional whole fraction isWhole digits spelled =>
      have point : step (.number whole) '.' = some ([], .fraction (whole ++ ['.'])) := rfl
      have reads : run .gap text.toList = some ([], .fraction text.toList) := by
        rw [spelled, run_append (run_whole isWhole), run, point]
        simp [run_fraction digits]
      have ends : finish (.fraction text.toList) = some [.number text] := by simp [finish]
      refine lexes_of_run reads ends ?_
      intro c ends
      obtain ⟨noDigit, -, noWord⟩ := split c ends
      simp [step, noDigit, noWord]

theorem isNumber_digitText (n : Nat) : IsNumber (Decimal.digitText n) :=
  .whole (by simpa [Decimal.digitText] using isWhole_toDigits n)

/-- All digits of a number with zeros behind them. -/
theorem isWhole_zeros {n : Nat} (positive : n ≠ 0) (count : Nat) :
    IsWhole (Nat.toDigits 10 n ++ List.replicate count '0') := by
  refine ⟨?_, .inr ⟨?_, ?_⟩⟩
  · intro c mem
    rcases List.mem_append.mp mem with digit | zero
    · exact isDigit_of_mem_toDigits digit
    · rw [List.eq_of_mem_replicate zero]
      decide
  · exact List.append_ne_nil_of_left_ne_nil Nat.toDigits_ne_nil _
  · have head := head_toDigits (Nat.pos_of_ne_zero positive)
    rw [List.head?_append]
    cases digits : Nat.toDigits 10 n with
    | nil => exact absurd digits Nat.toDigits_ne_nil
    | cons digit others => simpa [digits] using head

theorem isNumber_pointed (n places : Nat) : IsNumber (Decimal.pointed n places) := by
  unfold Decimal.pointed
  extract_lets digits padded whole
  have allDigits : ∀ c ∈ padded, isDigit c = true := by
    intro c mem
    rcases List.mem_append.mp mem with zero | digit
    · rw [List.eq_of_mem_replicate zero]
      decide
    · exact isDigit_of_mem_toDigits digit
  refine @IsNumber.fractional _ (padded.take whole) (padded.drop whole)
    ⟨fun c mem => allDigits c (List.mem_of_mem_take mem), ?_⟩
    (fun c mem => allDigits c (List.mem_of_mem_drop mem)) (by simp)
  have positive : 0 < digits.length := List.length_pos_iff.mpr Nat.toDigits_ne_nil
  by_cases long : places < digits.length
  · -- nothing is put in front, and a digit is left before the point
    have same : padded = digits := by simp [padded, Nat.sub_eq_zero_of_le long]
    have size : whole = digits.length - places := by simp [whole, same]
    rcases Nat.eq_zero_or_pos n with rfl | nonzero
    · have single : digits = ['0'] := Nat.toDigits_zero 10
      refine .inl ?_
      rw [same, size, single]
      simp only [single, List.length_singleton, Nat.lt_one_iff] at long
      simp [long]
    · refine .inr ⟨?_, ?_⟩
      · rw [same, size, ← List.length_pos_iff, List.length_take]
        omega
      · rw [same, size, List.head?_take, if_neg (by omega)]
        exact head_toDigits nonzero
  · -- the digits are all behind the point
    obtain ⟨count, padding⟩ : ∃ count, places + 1 - digits.length = count + 1 :=
      ⟨places - digits.length, by omega⟩
    have front : padded = '0' :: (List.replicate count '0' ++ digits) := by
      simp [padded, padding, List.replicate_succ]
    have size : whole = 1 := by
      simp only [whole, front, List.length_cons, List.length_append, List.length_replicate]
      omega
    refine .inl ?_
    simp [size, front]

theorem isNumber_positional (d : Decimal) : IsNumber d.positional := by
  unfold Decimal.positional
  split
  · split
    · exact .whole ⟨by simp [isDigit], .inl (by simp)⟩
    · rename_i nonzero
      refine .whole ?_
      simpa [Decimal.digitText, Decimal.zeros] using isWhole_zeros nonzero d.exponent.toNat
  · exact isNumber_pointed _ _

/-! ## Texts -/

/-- The four digits of a control character. -/
theorem hexFour_control : ∀ n < 32,
    Text.hexFour n = ['0', '0', (n / 16).digitChar, (n % 16).digitChar] ∧
      hexValue? (n / 16).digitChar = some (n / 16) ∧ hexValue? (n % 16).digitChar = some (n % 16) ∧
      codeChar? [0, 0, n / 16, n % 16] = some (Char.ofNat n) := by
  decide

theorem run_control {n : Nat} (small : n < 32) (value : List Char) :
    run (.text value) (['\\', 'u'] ++ Text.hexFour n) =
      some ([], .text (value ++ [Char.ofNat n])) := by
  obtain ⟨digits, third, fourth, meant⟩ := hexFour_control n small
  have front : run (.text value) ['\\', 'u', '0', '0'] = some ([], .code value [0, 0]) := rfl
  rw [digits]
  change run (.text value) (['\\', 'u', '0', '0'] ++ [_, _]) = _
  rw [run_append front]
  simp [run, step, third, fourth, meant]

/-- The letters of escapes in data literals, and the characters that they name. -/
def dataLetters : List (Char × Char) :=
  [('"', '"'), ('\\', '\\'), ('b', '\x08'), ('f', '\x0c'), ('n', '\n'), ('r', '\r'), ('t', '\t')]

/-- The forms of a character in a data literal. -/
inductive DataForm (c : Char) : Prop
  | named {letter : Char} (known : (letter, c) ∈ dataLetters)
      (same : Text.dataChar c = ['\\', letter])
  | control (small : c.toNat < 32) (same : Text.dataChar c = '\\' :: 'u' :: Text.hexFour c.toNat)
  | raw (quote : c ≠ '"') (backslash : c ≠ '\\') (control : ¬ c.toNat < 32)
      (same : Text.dataChar c = [c])

theorem dataForm (c : Char) : DataForm c := by
  by_cases listed : c ∈ dataLetters.map Prod.snd
  · obtain ⟨⟨letter, meant⟩, known, rfl⟩ := List.mem_map.mp listed
    have forms : ∀ entry ∈ dataLetters, Text.dataChar entry.2 = ['\\', entry.1] := by decide
    exact .named known (forms _ known)
  · simp only [dataLetters, List.map_cons, List.map_nil, List.mem_cons, List.not_mem_nil, or_false,
      not_or] at listed
    obtain ⟨quote, backslash, backspace, formFeed, lineFeed, carriageReturn, tab⟩ := listed
    by_cases small : c.toNat < 32
    · exact .control small (by
        simp [Text.dataChar, quote, backslash, backspace, formFeed, lineFeed, carriageReturn, tab,
          small])
    · exact .raw quote backslash small (by
        simp [Text.dataChar, quote, backslash, backspace, formFeed, lineFeed, carriageReturn, tab,
          small])

/-- One character of a text, escaped or not. -/
theorem run_dataChar (value : List Char) (c : Char) :
    run (.text value) (Text.dataChar c) = some ([], .text (value ++ [c])) := by
  cases dataForm c with
  | named known same =>
      have meant : ∀ entry ∈ dataLetters, entry.1 ≠ 'u' ∧ escaped? entry.1 = some entry.2 := by
        decide
      obtain ⟨other, meant⟩ := meant _ known
      rw [same]
      simp [run, step, other, meant]
  | control small same =>
      rw [same]
      simpa using run_control small value
  | raw quote backslash control same =>
      have lineEnd : c ≠ '\n' ∧ c ≠ '\r' := by
        constructor <;> rintro rfl <;> exact absurd control (by decide)
      rw [same]
      simp [run, step, quote, backslash, lineEnd]

/-- No control character stands in a data literal. -/
theorem not_control_dataChar {c d : Char} (mem : d ∈ Text.dataChar c) : ¬ d.toNat < 32 := by
  have of_all {chars : List Char} (visible : chars.all (32 ≤ ·.toNat) = true)
      (same : Text.dataChar c = chars) : ¬ d.toNat < 32 := by
    rw [same] at mem
    exact Nat.not_lt.mpr (of_decide_eq_true (List.all_eq_true.mp visible d mem))
  cases dataForm c with
  | named known same =>
      have letters : ∀ entry ∈ dataLetters, ['\\', entry.1].all (32 ≤ ·.toNat) = true := by decide
      exact of_all (letters _ known) same
  | control small same =>
      have digits : ∀ n < 32,
          ('\\' :: 'u' :: Text.hexFour n).all (32 ≤ ·.toNat) = true := by decide
      exact of_all (digits c.toNat small) same
  | raw _ _ control same =>
      rw [same, List.mem_singleton] at mem
      rwa [mem]

theorem run_dataChars (value chars : List Char) :
    run (.text value) (chars.flatMap Text.dataChar) = some ([], .text (value ++ chars)) := by
  induction chars generalizing value with
  | nil => simp [run]
  | cons c chars ih =>
      rw [List.flatMap_cons, run_append (run_dataChar value c), ih]
      simp

theorem lexes_text (value : String) :
    Lexes anyChar (Text.dataLiteral value) [.text value.toList] := by
  have opening : step .gap '"' = some ([], .text []) := by decide
  have reads : run .gap (Text.dataLiteral value).toList = some ([.text value.toList], .gap) := by
    rw [Text.dataLiteral, String.toList_ofList, List.cons_append, run, opening]
    change Option.map _ (run (.text []) _) = _
    rw [run_append (run_dataChars [] value.toList)]
    rfl
  exact lexes_of_run reads rfl fun _ _ => rfl

end Qalam.EcmaScript

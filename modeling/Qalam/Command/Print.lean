/-
# Programs that print their arguments

`echo` writes its arguments with spaces between them and a line end behind them. `printf` writes
a format in which directives stand for arguments, and begins the format again as long as
arguments are left. Both exist as programs and as parts of a shell, and the two differ: in the
escapes and directives they know, in the precision of fractions, and in what they refuse at once.
-/

import Qalam.Command.Escape
import Qalam.Command.Fraction
import Qalam.Command.Quoting

namespace Qalam.Command

/-- The settings of `echo`. -/
structure EchoOptions where
  lineEnd : Bool
  escapes : Bool

/-- Take the options of `echo` from its arguments. An argument with any other letter is text. -/
def echoOptions (options : EchoOptions) : List String → EchoOptions × List String
  | [] => (options, [])
  | arg :: args =>
    match arg.toList with
    | '-' :: letter :: letters =>
      if (letter :: letters).all fun c => c = 'n' || c = 'e' || c = 'E' then
        let apply (options : EchoOptions) (c : Char) : EchoOptions :=
          if c = 'n' then { options with lineEnd := false }
          else { options with escapes := c = 'e' }
        echoOptions ((letter :: letters).foldl apply options) args
      else (options, arg :: args)
    | _ => (options, arg :: args)

/-- Print arguments as `echo` does with given settings. -/
def echoText (rules : EscapeRules) (options : EchoOptions) (args : List String) : List Char :=
  let text := (" ".intercalate args).toList
  let lineEnd := if options.lineEnd then ['\n'] else []
  if options.escapes then
    match unescape rules text.length text with
    | (output, .ending) => output
    | (output, _) => output ++ lineEnd
  else text ++ lineEnd

/-- The program `echo`. -/
def echo (args : List String) : Outcome :=
  let (options, args) := echoOptions ⟨true, false⟩ args
  .printed (echoText .echo options args)

/-- The `echo` of a shell, which always reads escapes and has a single option. -/
def shellEcho : List String → Outcome
  | "-n" :: args => .printed (echoText .shellText ⟨false, true⟩ args)
  | args => .printed (echoText .shellText ⟨true, true⟩ args)

/-- The largest integer of 64 bits. -/
def maxInteger : Int := 9223372036854775807

/-- The largest integer of 64 bits without a sign. -/
def maxNatural : Int := 18446744073709551615

/-- The largest integer of 32 bits. -/
def maxMeasure : Int := 2147483647

/-- Keep an integer within 64 bits. -/
def clamp (value : Int) : Int :=
  if maxInteger < value then maxInteger
  else if value < -maxInteger - 1 then -maxInteger - 1
  else value

/-- Keep an integer within 64 bits without a sign. A small enough negative one is left as it is
and stands for its bits. -/
def clampNatural (value : Int) : Int :=
  if maxNatural < value || value < -maxNatural then maxNatural else value

/-- Read the number at the beginning of a text: the number, and what follows it. A zero in front
makes it octal, and a zero with an x hexadecimal. Without digits nothing is read. -/
def leadingNumber (text : List Char) : Int × List Char :=
  let blankless := text.dropWhile isSpace
  let (negative, unsigned) := match blankless with
    | '-' :: rest => (true, rest)
    | '+' :: rest => (false, rest)
    | rest => (false, rest)
  let isHexadecimal (rest : List Char) : Bool := (rest.head?.bind (digit? 16)).isSome
  let (base, body) := match unsigned with
    | '0' :: 'x' :: rest => if isHexadecimal rest then (16, rest) else (8, unsigned)
    | '0' :: 'X' :: rest => if isHexadecimal rest then (16, rest) else (8, unsigned)
    | '0' :: _ => (8, unsigned)
    | _ => (10, unsigned)
  let (value, rest) := digits base body.length 0 body
  if rest.length = body.length then (0, text)
  else (if negative then -(value : Int) else (value : Int), rest)

/-- What is wrong with an argument that should be a number. -/
inductive Defect
  | noNumber
  | leftover
  | outOfRange
  deriving DecidableEq

/-- What the program, or else the shell, says about an argument that should be a number. -/
def Defect.text (standalone : Bool) (arg : String) : Defect → String
  | noNumber =>
    if standalone then s!"printf: '{arg}': expected a numeric value"
    else s!"{arg}: expected numeric value"
  | leftover =>
    if standalone then s!"printf: '{arg}': value not completely converted"
    else s!"{arg}: not completely converted"
  | outOfRange =>
    if standalone then s!"printf: '{arg}': Numerical result out of range"
    else s!"{arg}: Numerical result out of range"

/-- The defect of an argument, from what was left of it and whether its number fits. -/
def defect? (standalone : Bool) (arg : String) (rest : List Char) (fits : Bool) : Option Defect :=
  if standalone && !fits then some .outOfRange
  else if rest.isEmpty then if fits then none else some .outOfRange
  else if rest.length = arg.length then some .noNumber
  else some .leftover

/-- The number of the character behind a quote, if an argument is of this form. The program needs
a character there. -/
def quotedNumber? (standalone : Bool) : List Char → Option Nat
  | '"' :: c :: _ | '\x27' :: c :: _ => some c.toNat
  | ['"'] | ['\x27'] => if standalone then none else some 0
  | _ => none

/-- The integer that an argument of `printf` stands for, with a sign or without, and its defect.
A missing argument stands for zero. -/
def printedInteger (standalone signed : Bool) (arg : String) : Int × Option Defect :=
  match quotedNumber? standalone arg.toList with
  | some value => (value, none)
  | none =>
    let (value, rest) := leadingNumber arg.toList
    let kept := if signed then clamp value else clampNatural value
    (kept, defect? standalone arg rest (kept = value))

/-- The precision of fractions in the program and in the shell. -/
def printedPrecision (standalone : Bool) : Precision := if standalone then .extended else .double

/-- The fraction that an argument of `printf` stands for, and its defect. -/
def printedFraction (standalone : Bool) (arg : String) : Fraction × Option Defect :=
  match quotedNumber? standalone arg.toList with
  | some value => (⟨false, .finite value 0⟩, none)
  | none =>
    let (number, fits, rest) := Fraction.read (printedPrecision standalone) arg.toList
    (number, defect? standalone arg rest fits)

/-- A directive of a format: its flags, width, precision and letter. -/
structure Directive where
  flags : List Char
  width : Nat
  precision : Option Nat
  letter : Char

namespace Directive

/-- Put spaces beside a field up to the width. -/
def pad (directive : Directive) (field : List Char) : List Char :=
  let padding := List.replicate (directive.width - field.length) ' '
  if directive.flags.contains '-' then field ++ padding else padding ++ field

/-- Cut a field at the precision. -/
def cut (directive : Directive) (field : List Char) : List Char :=
  match directive.precision with
  | some length => field.take length
  | none => field

/-- Whether zeros fill a number up to the width. -/
def isZeroFilled (directive : Directive) : Bool :=
  directive.flags.contains '0' && !directive.flags.contains '-'

/-- A number with zeros between what stands in front of its digits and the digits themselves. -/
def filled (directive : Directive) (front body : List Char) : List Char :=
  front ++ List.replicate (directive.width - front.length - body.length) '0' ++ body

/-- The field of an integer, from what stands in front of its digits and the digits themselves.
Zeros fill it up to the precision, or up to the width if the flags say so. -/
def number (directive : Directive) (front body : List Char) : List Char :=
  match directive.precision with
  | some length => directive.pad (front ++ List.replicate (length - body.length) '0' ++ body)
  | none =>
    if directive.isZeroFilled then directive.filled front body
    else directive.pad (front ++ body)

/-- The digits of a number. A zero with the precision zero has none. -/
def digitsOf (directive : Directive) (base value : Nat) : List Char :=
  if directive.precision = some 0 && value = 0 then [] else Nat.toDigits base value

/-- What stands in front of the digits of a number with a sign. -/
def sign (directive : Directive) (negative : Bool) : List Char :=
  if negative then ['-']
  else if directive.flags.contains '+' then ['+']
  else if directive.flags.contains ' ' then [' ']
  else []

/-- The field of an integer in decimal digits. -/
def signed (directive : Directive) (value : Int) : List Char :=
  directive.number (directive.sign (value < 0)) (directive.digitsOf 10 value.natAbs)

/-- The field of the 64 bits of an integer in some base. -/
def unsigned (directive : Directive) (base : Nat) (value : Int) : List Char :=
  let bits := (value % 18446744073709551616).toNat
  let body := directive.digitsOf base bits
  let body := if directive.letter = 'X' then body.map Char.toUpper else body
  let marked := directive.flags.contains '#'
  if base = 8 && marked && body.head? ≠ some '0' then
    let zeros := (directive.precision.getD 0) - body.length
    directive.number [] (if zeros = 0 then '0' :: body else body)
  else if base = 16 && marked && bits ≠ 0 then directive.number ['0', directive.letter] body
  else directive.number [] body

/-- The field of a fraction. -/
def fraction (standalone : Bool) (directive : Directive) (number : Fraction) : List Char :=
  let keeps := directive.flags.contains '#'
  let body := number.text (printedPrecision standalone) directive.letter keeps directive.precision
  let front := directive.sign number.negative
  let isFinite : Bool := match number.magnitude with
    | .finite .. => true
    | _ => false
  let base := if ['a', 'A'].contains directive.letter && isFinite then 2 else 0
  if isFinite && directive.isZeroFilled then
    directive.filled (front ++ body.take base) (body.drop base)
  else directive.pad (front ++ body)

/-- Whether the program, or else the shell, accepts a directive. -/
def isAccepted (standalone : Bool) (directive : Directive) : Bool :=
  let flagged (flags : List Char) : Bool := directive.flags.any flags.contains
  let grouped := flagged ['\x27', 'I']
  let plain := directive.flags.isEmpty && directive.width = 0 && directive.precision.isNone
  match directive.letter with
  | 's' => !standalone || (!flagged ['0', '#'] && !grouped)
  | 'c' => !standalone || (!flagged ['0', '#'] && !grouped && directive.precision.isNone)
  | 'b' => !standalone || plain
  | 'q' => standalone && plain
  | 'd' | 'i' | 'u' => !standalone || !flagged ['#']
  | 'o' | 'x' | 'X' | 'a' | 'A' | 'e' | 'E' => !grouped
  | 'f' | 'F' | 'g' | 'G' => true
  | _ => false

end Directive

/-- How the writing of a format goes on: to its end, no further, or no further with a failure. -/
inductive Progress
  | goes
  | ends
  | fails
  deriving DecidableEq

/-- The state of `printf`: arguments to come, whether one was used, the status so far, what was
said, and how it goes on. -/
structure PrintState where
  args : List String
  used : Bool
  status : Nat
  complaints : List String
  progress : Progress

namespace PrintState

/-- Take the next argument; there is always an empty one. -/
def take (state : PrintState) : String × PrintState :=
  match state.args with
  | arg :: args => (arg, { state with args, used := true })
  | [] => ("", state)

/-- Note the defect of an argument. -/
def note (standalone : Bool) (arg : String) (defect : Option Defect) (state : PrintState) :
    PrintState :=
  match defect with
  | some defect =>
    { state with
      status := 1, complaints := state.complaints ++ [defect.text standalone arg] }
  | none => state

/-- Stop with a failure. -/
def fail (standalone : Bool) (complaint : String) (state : PrintState) : PrintState :=
  let complaint := if standalone then "printf: " ++ complaint else complaint
  { state with
    status := if standalone then 1 else 2
    complaints := state.complaints ++ [complaint]
    progress := .fails }

end PrintState

/-- Read a width or precision: digits, or a star that takes it from the arguments. The program
refuses one of more than 32 bits, and the shell keeps its last 32 bits. -/
def measure (standalone : Bool) (state : PrintState) :
    List Char → Option Int × List Char × PrintState
  | '*' :: rest =>
    let (arg, state) := state.take
    let (value, defect) := printedInteger standalone true arg
    let state := state.note standalone arg defect
    if !standalone then (some (Int.bmod value 4294967296), rest, state)
    else if maxMeasure < value || value < -maxMeasure - 1 then (none, rest, state)
    else (some value, rest, state)
  | text =>
    let (value, rest) := digits 10 text.length 0 text
    (if maxMeasure < value then none else some value, rest, state)

/-- Read a directive after its percent sign. The program skips letters that say how long a
number is. -/
def directive? (standalone : Bool) (text : List Char) (state : PrintState) :
    Option Directive × List Char × PrintState :=
  let isFlag (c : Char) : Bool :=
    c = '-' || c = '+' || c = ' ' || c = '0' || c = '#' ||
      (standalone && (c = '\x27' || c = 'I'))
  let flags := text.takeWhile isFlag
  let (width, rest, state) := measure standalone state (text.dropWhile isFlag)
  let (precision, rest, state) := match rest with
    | '.' :: rest =>
      let (precision, rest, state) := measure standalone state rest
      (precision.map fun (value : Int) => if value < 0 then none else some value.toNat, rest, state)
    | rest => (some none, rest, state)
  let isLength (c : Char) : Bool := standalone && ['l', 'L', 'h', 'j', 't', 'z'].contains c
  let spelled (rest : List Char) : String :=
    String.ofList ('%' :: text.take (text.length - rest.length))
  match rest.dropWhile isLength with
  | [] =>
    let complaint := if standalone then spelled [] ++ ": invalid conversion specification"
      else "missing format character"
    (none, [], state.fail standalone complaint)
  | letter :: rest =>
    match width, precision with
    | some width, some precision =>
      let flags := if width < 0 then '-' :: flags else flags
      let directive : Directive := ⟨flags, width.natAbs, precision, letter⟩
      let complaint := if standalone then spelled rest ++ ": invalid conversion specification"
        else spelled rest ++ ": invalid directive"
      if directive.isAccepted standalone then (some directive, rest, state)
      else (none, rest, state.fail standalone complaint)
    | _, _ => (none, rest, state.fail standalone "invalid field width")

/-- The field of a directive, and the state after it. -/
def field (standalone : Bool) (directive : Directive) (state : PrintState) :
    List Char × PrintState :=
  let (arg, state) := state.take
  let integer (signed : Bool) (write : Int → List Char) : List Char × PrintState :=
    let (value, defect) := printedInteger standalone signed arg
    (write value, state.note standalone arg defect)
  match directive.letter with
  | 's' => (directive.pad (directive.cut arg.toList), state)
  | 'b' =>
    let rules : EscapeRules := if standalone then .argument else .shellText
    let (text, last) := unescape rules arg.length arg.toList
    let state := match last with
      | .text _ => state
      | .ending =>
        { state with progress := .ends, status := if standalone then 0 else state.status }
      | .fault => state.fail standalone "missing hexadecimal number in escape"
    (directive.pad (directive.cut text), state)
  | 'c' => (directive.pad [(arg.toList.head?).getD '\x00'], state)
  | 'q' => (quoted arg.toList, state)
  | 'o' => integer false (directive.unsigned 8)
  | 'u' => integer false (directive.unsigned 10)
  | 'x' | 'X' => integer false (directive.unsigned 16)
  | 'd' | 'i' => integer true directive.signed
  | _ =>
    let (number, defect) := printedFraction standalone arg
    (directive.fraction standalone number, state.note standalone arg defect)

/-- Write a format once, taking arguments as its directives ask for them. The budget is the length
of the format. -/
def formatOnce (standalone : Bool) : Nat → List Char → PrintState → List Char × PrintState
  | 0, _, state => ([], state)
  | _, [], state => ([], state)
  | budget + 1, c :: rest, state =>
    let goOn (first rest : List Char) (state : PrintState) : List Char × PrintState :=
      if state.progress = .goes then
        let (others, state) := formatOnce standalone budget rest state
        (first ++ others, state)
      else (first, state)
    if c = '\\' then
      let rules : EscapeRules := if standalone then .format else .shellFormat
      match escape rules rest with
      | (.text first, rest) => goOn first rest state
      | (.ending, _) => ([], { state with progress := .ends, status := 0 })
      | (.fault, _) => ([], state.fail standalone "missing hexadecimal number in escape")
    else if c = '%' && rest.head? = some '%' then goOn ['%'] rest.tail state
    else if c = '%' && standalone && (rest.head? = some 'b' || rest.head? = some 'q') &&
        state.args.isEmpty then goOn [] rest.tail state
    else if c = '%' then
      match directive? standalone rest state with
      | (none, rest, state) => goOn [] rest state
      | (some directive, rest, state) =>
        let (first, state) := field standalone directive state
        goOn first rest state
    else goOn [c] rest state

/-- Write a format until the arguments are used up. -/
def formatAll (standalone : Bool) (format : List Char) :
    Nat → PrintState → List Char × PrintState
  | 0, state => ([], state)
  | budget + 1, state =>
    let (output, state) := formatOnce standalone format.length format { state with used := false }
    if state.progress = .goes && state.used && !state.args.isEmpty then
      let (others, state) := formatAll standalone format budget state
      (output ++ others, state)
    else (output, state)

/-- Write a format with arguments. -/
def formatted (standalone : Bool) (format : String) (args : List String) : Outcome :=
  let state : PrintState := ⟨args, false, 0, [], .goes⟩
  let (output, state) := formatAll standalone format.toList (args.length + 1) state
  let excess := match standalone && state.progress = .goes, state.args with
    | true, arg :: _ =>
      [s!"printf: warning: ignoring excess arguments, starting with '{arg}'"]
    | _, _ => []
  { Outcome.printed output with
    status := state.status, complaints := state.complaints ++ excess }

/-- The line with which a program points to its help. -/
def tryHelp (program : String) : String := s!"Try '{program} --help' for more information."

/-- Print arguments as `printf` does. Two hyphens in front of the format are skipped; a shell
takes any other hyphen there for an option that it does not have. -/
def printf (standalone : Bool) (args : List String) : Outcome :=
  let missing : Outcome :=
    if standalone then .failed 1 ["printf: missing operand", tryHelp "printf"]
    else .failed 2 ["usage: printf format [arg ...]"]
  match args with
  | [] => missing
  | first :: args =>
    match first.toList, args with
    | ['-', '-'], [] => missing
    | ['-', '-'], format :: args => formatted standalone format args
    | '-' :: c :: _, args =>
      if standalone then formatted standalone first args
      else .failed 2 [String.ofList ("Illegal option -".toList ++ [c])]
    | _, args => formatted standalone first args

end Qalam.Command

/-!
# The words of the command line

The command line names a subcommand, `lex`, and behind it the input, the output and flags, each at most once. The verbosity
flag may stand on either side of the subcommand, once on each. A value stands in a word of its own or in the word of its
option, with or without an equals sign; flags and at last one option may share a word behind a single dash. A word of its
own is no value if it is empty or looks like an option.
-/

namespace MiniLex

/-- What the command line asks for. -/
structure Options where
  input : String
  output : Option String
  pretty : Bool
  denyErrors : Bool
  verbose : Bool
  deriving DecidableEq

namespace Options

/-- The flags. -/
inductive Flag where
  | pretty | denyErrors | verbose
  deriving DecidableEq

/-- The options that take a value. -/
inductive Slot where
  | input | output
  deriving DecidableEq

/-- One thing that the command line says behind the subcommand. -/
inductive Item where
  | flag (f : Flag)
  | value (s : Slot) (text : String)
  deriving DecidableEq

/-- The flag with a long name. -/
def longFlag? : String → Option Flag
  | "pretty" => some .pretty
  | "deny-errors" => some .denyErrors
  | "verbose" => some .verbose
  | _ => none

/-- The option with a long name. -/
def longSlot? : String → Option Slot
  | "input" => some .input
  | "output" => some .output
  | _ => none

/-- The option with a short name. -/
def shortSlot? : Char → Option Slot
  | 'i' => some .input
  | 'o' => some .output
  | _ => none

/-- A value for an option: any text but the empty one. -/
def value? (s : Slot) (text : List Char) : Option Item :=
  if text.isEmpty then none else some (.value s (String.ofList text))

/-- Whether a word looks like an option: it begins with a dash and is not a dash alone. -/
def looksLikeOption (word : List Char) : Bool := word.head? == some '-' && word.length != 1

/-- What the letters behind a single dash say, and the option whose value is still to come, if the last one is one. -/
def cluster? : List Char → Option (List Item × Option Slot)
  | [] => some ([], none)
  | c :: cs =>
    if c = 'v' then (cluster? cs).map (fun (items, pending) => (.flag .verbose :: items, pending))
    else
      match shortSlot? c with
      | none => none
      | some s =>
        if cs.isEmpty then some ([], some s)
        else (value? s (if cs.head? = some '=' then cs.tail else cs)).map (fun item => ([item], none))

/-- What a word that begins with two dashes says behind them, and the option whose value is still to come. -/
def long? (word : List Char) : Option (List Item × Option Slot) :=
  let name := String.ofList (word.takeWhile (· != '='))
  match word.dropWhile (· != '=') with
  | [] =>
    match longFlag? name, longSlot? name with
    | some f, _ => some ([.flag f], none)
    | none, some s => some ([], some s)
    | none, none => none
  | _ :: text => (longSlot? name).bind fun s => (value? s text).map (fun item => ([item], none))

/-- What one word says, and the option whose value is still to come. -/
def word? : List Char → Option (List Item × Option Slot)
  | '-' :: '-' :: name => long? name
  | '-' :: letters => if letters.isEmpty then none else cluster? letters
  | _ => none

/-- What the words behind the subcommand say. Two dashes end the options, and nothing may stand behind them. -/
def items? : List String → Option (List Item)
  | [] => some []
  | w :: ws =>
    if w = "--" then if ws.isEmpty then some [] else none
    else
      match word? w.toList with
      | none => none
      | some (items, none) => (items? ws).map (items ++ ·)
      | some (items, some s) =>
        match ws with
        | [] => none
        | text :: ws =>
          if looksLikeOption text.toList then none
          else (value? s text.toList).bind fun item => (items? ws).map (fun more => items ++ item :: more)

/-- How often a flag is set. -/
def countFlag (items : List Item) (f : Flag) : Nat := items.count (.flag f)

/-- The values that an option is given. -/
def valuesOf (items : List Item) (s : Slot) : List String :=
  items.filterMap fun
    | .value t text => if t = s then some text else none
    | .flag _ => none

/-- Puts together what the command line says, given whether the verbosity flag stands in front of the subcommand. -/
def assemble? (verbose : Bool) (items : List Item) : Option Options :=
  if 1 < countFlag items .pretty || 1 < countFlag items .denyErrors || 1 < countFlag items .verbose then none
  else
    let options (input : String) (output : Option String) : Options :=
      ⟨input, output, 0 < countFlag items .pretty, 0 < countFlag items .denyErrors,
       verbose || 0 < countFlag items .verbose⟩
    match valuesOf items .input, valuesOf items .output with
    | [input], [] => some (options input none)
    | [input], [output] => some (options input (some output))
    | _, _ => none

/-- What a command line asks for, if it is well formed. -/
def parse? : List String → Option Options
  | [] => none
  | w :: ws =>
    if w = "lex" then (items? ws).bind (assemble? false)
    else if w = "-v" || w = "--verbose" then
      match ws with
      | "lex" :: ws => (items? ws).bind (assemble? true)
      | _ => none
    else none

end Options

end MiniLex

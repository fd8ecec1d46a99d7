/-!
# Command lines

A command line is read in two steps. Each argument is first taken apart on its own into tokens: a
word, an option with the text attached to it, or the mark after which no options come. A group of
short options is one token per option. The tokens are then taken in order, and the first thing wrong
or the first request for help or for the version ends the reading.
-/

set_option autoImplicit false

namespace RowFlags.CommandLine

/-- The options that a number belongs to. -/
inductive Amount where
  | articles
  | publishEvery
  deriving DecidableEq

/-- The options that are given or not. -/
inductive Switch where
  | onDemand
  | debug
  deriving DecidableEq

/-- The options there are. -/
inductive OptionName where
  | amount (a : Amount)
  | switch (s : Switch)
  | help
  | version
  deriving DecidableEq

namespace OptionName

/-- Every option, once. -/
def all : List OptionName :=
  [.amount .articles, .amount .publishEvery, .switch .onDemand, .switch .debug, .help, .version]

/-- The name after two dashes. -/
def long : OptionName → String
  | .amount .articles => "articles"
  | .amount .publishEvery => "publish-every"
  | .switch .onDemand => "on-demand"
  | .switch .debug => "debug"
  | .help => "help"
  | .version => "version"

/-- The letter after one dash. -/
def letter? : OptionName → Option Char
  | .amount .articles => some 'a'
  | .amount .publishEvery => some 'k'
  | .switch .onDemand => none
  | .switch .debug => some 'd'
  | .help => some 'h'
  | .version => some 'V'

/-- Whether a value belongs to the option. -/
def takesValue : OptionName → Bool
  | .amount _ => true
  | _ => false

/-- The option of a long name. -/
def ofLong? (name : String) : Option OptionName := all.find? (·.long = name)

/-- The option of a letter. -/
def ofLetter? (c : Char) : Option OptionName := all.find? (·.letter? = some c)

end OptionName

/-! ## Tokens -/

/-- A part of an argument. -/
inductive Token where
  | word (text : String)
  | option (name : OptionName) (attached : Option String)
  /-- Two dashes alone: options end here. -/
  | optionsEnd
  /-- No option is called so. -/
  | unknown (text : String)
  deriving DecidableEq

namespace Token

/-- The value attached to the name of an option, less an equals sign in front of it. -/
def attachedText : List Char → Option String
  | [] => none
  | '=' :: value => some (String.ofList value)
  | value => some (String.ofList value)

/-- The tokens of a group of letters. What stands after a letter that takes a value is its value. -/
def ofLetters : List Char → List Token
  | [] => []
  | c :: rest =>
    match OptionName.ofLetter? c with
    | none => [.unknown (String.ofList ['-', c])]
    | some o =>
      if o.takesValue then [.option o (attachedText rest)] else .option o none :: ofLetters rest

/-- The token of what stands after two dashes: a name, and a value if an equals sign follows. -/
def ofLongForm (text : List Char) : Token :=
  let name := String.ofList (text.takeWhile (· ≠ '='))
  match OptionName.ofLong? name with
  | none => .unknown ("--" ++ name)
  | some o => .option o (attachedText (text.dropWhile (· ≠ '=')))

/-- The tokens of an argument. -/
def ofArgument (argument : String) : List Token :=
  match argument.toList with
  | ['-', '-'] => [.optionsEnd]
  | '-' :: '-' :: text => [ofLongForm text]
  | '-' :: c :: letters => ofLetters (c :: letters)
  | _ => [.word argument]

end Token

/-! ## Requests -/

/-- What the command line can set. -/
structure Settings where
  articles : UInt32 := 10
  publishEvery : UInt32 := 3
  onDemand : Bool := false
  debug : Bool := false
  deriving DecidableEq

/-- The settings with another number. -/
def Settings.put (s : Settings) (n : UInt32) : Amount → Settings
  | .articles => { s with articles := n }
  | .publishEvery => { s with publishEvery := n }

/-- The settings with something turned on. -/
def Settings.turnOn (s : Settings) : Switch → Settings
  | .onDemand => { s with onDemand := true }
  | .debug => { s with debug := true }

/-- What is asked for. -/
inductive Request where
  | walkthrough (settings : Settings)
  | help
  | version
  deriving DecidableEq

/-- Why a command line is not understood. -/
inductive UsageError where
  | unexpected (text : String)
  | valueMissing (amount : Amount)
  | valueUnneeded (option : OptionName) (value : String)
  | repeated (option : OptionName)
  | badNumber (amount : Amount) (value : String)
  deriving DecidableEq

/-- The wording of a usage error. -/
def UsageError.message : UsageError → String
  | .unexpected text => s!"unexpected argument '{text}'"
  | .valueMissing a => "a value is required for '--" ++ (OptionName.amount a).long ++ "'"
  | .valueUnneeded o value => s!"unexpected value '{value}' for '--" ++ o.long ++ "'"
  | .repeated o => "'--" ++ o.long ++ "' cannot be used twice"
  | .badNumber a value => s!"invalid value '{value}' for '--" ++ (OptionName.amount a).long ++ "'"

/-- The number that decimal digits write; there must be some. -/
def natOfDigits? : List Char → Option Nat
  | [] => none
  | digits =>
    if digits.all Char.isDigit then some (Nat.ofDigitChars 10 digits 0) else none

/-- The number that a text writes, if it is one of 32 bits. A sign may stand in front, and a minus
only before zero. -/
def number? (text : String) : Option UInt32 := do
  let n ← match text.toList with
    | '+' :: digits => natOfDigits? digits
    | '-' :: digits => (natOfDigits? digits).filter (· = 0)
    | digits => natOfDigits? digits
  if n < UInt32.size then some n.toUInt32 else none

/-- Options given so far, and what they set. -/
structure Reading where
  given : List OptionName := []
  settings : Settings := {}

namespace Reading

/-- Notes an option as given, which it must not be yet. -/
def note (r : Reading) (o : OptionName) : Except UsageError Reading :=
  if o ∈ r.given then .error (.repeated o) else .ok { r with given := o :: r.given }

/-- Takes an amount with the text of its number. -/
def takeAmount (r : Reading) (a : Amount) (text : String) : Except UsageError Reading := do
  let r ← r.note (.amount a)
  match number? text with
  | some n => return { r with settings := r.settings.put n a }
  | none => .error (.badNumber a text)

/-- Takes a switch. -/
def takeSwitch (r : Reading) (s : Switch) : Except UsageError Reading := do
  let r ← r.note (.switch s)
  return { r with settings := r.settings.turnOn s }

/-- Takes tokens in order. -/
def finish : List Token → Reading → Except UsageError Request
  | [], r => .ok (.walkthrough r.settings)
  | .word text :: _, _ => .error (.unexpected text)
  | .unknown text :: _, _ => .error (.unexpected text)
  | [.optionsEnd], r => .ok (.walkthrough r.settings)
  | .optionsEnd :: _, _ => .error (.unexpected "--")
  | .option (.amount a) (some text) :: rest, r => r.takeAmount a text >>= finish rest
  | .option (.amount a) none :: .word text :: rest, r => r.takeAmount a text >>= finish rest
  | .option (.amount a) none :: _, _ => .error (.valueMissing a)
  | .option o (some text) :: _, _ => .error (.valueUnneeded o text)
  | .option (.switch s) none :: rest, r => r.takeSwitch s >>= finish rest
  | .option .help none :: _, _ => .ok .help
  | .option .version none :: _, _ => .ok .version

end Reading

/-- What the arguments ask for. -/
def read (arguments : List String) : Except UsageError Request :=
  Reading.finish (arguments.flatMap Token.ofArgument) {}

end RowFlags.CommandLine

import Decommission.Resource.MachineId
import Decommission.Settings

/-!
The arguments of the command line. Options may stand before and after the command; an option after it
wins over the same one before it, and either wins over the environment. A value that is an argument of
its own is looked at late, so that help for a command is given although such a value right before the
command is bad.
-/
namespace Decommission.CommandLine

inductive Command where
  | destroy (id : MachineId)
  | deleteGroupIfEmpty (region : String)
  | encode (region name : String)

/-- The names of the commands. -/
inductive Verb where
  | destroy
  | deleteGroupIfEmpty
  | encode
  deriving DecidableEq, Repr

def Verb.ofText? (s : String) : Option Verb :=
  if s = "destroy" then some .destroy
  else if s = "delete-group-if-empty" then some .deleteGroupIfEmpty
  else if s = "encode" then some .encode
  else none

/-- How many arguments the command takes. -/
def Verb.arity : Verb → Nat
  | .destroy => 1
  | .deleteGroupIfEmpty => 1
  | .encode => 2

def subscriptionVariable : String := "AZURE_SUBSCRIPTION_ID"

def accessTokenVariable : String := "AZURE_ACCESS_TOKEN"

def groupPrefixVariable : String := "ARMSWEEP_GROUP_PREFIX"

/-- The variables of the environment that give options. -/
def variableNames : List String := [subscriptionVariable, accessTokenVariable, groupPrefixVariable]

/-- The options that were given. -/
structure Options where
  subscription : Option String := none
  accessToken : Option String := none
  endpoint : Option String := none
  groupPrefix : Option String := none
  deleteTimeout : Option Nat := none
  deriving DecidableEq, Repr

namespace Options

/-- The options of both, those of the second where both have one. -/
def overriddenBy (a b : Options) : Options where
  subscription := b.subscription <|> a.subscription
  accessToken := b.accessToken <|> a.accessToken
  endpoint := b.endpoint <|> a.endpoint
  groupPrefix := b.groupPrefix <|> a.groupPrefix
  deleteTimeout := b.deleteTimeout <|> a.deleteTimeout

/-- The options that the environment gives. -/
def ofEnvironment (environment : String → Option String) : Options where
  subscription := environment subscriptionVariable
  accessToken := environment accessTokenVariable
  groupPrefix := environment groupPrefixVariable

def connection (o : Options) : ConnectionSettings where
  endpoint := o.endpoint.getD Defaults.endpoint
  subscription := o.subscription.getD ""
  accessToken := o.accessToken.getD ""

def teardown (o : Options) : TeardownSettings where
  groupPrefix := o.groupPrefix.getD Defaults.groupPrefix
  wait := { timeout := .seconds (o.deleteTimeout.getD Defaults.deleteTimeoutSeconds) }

end Options

inductive OptionName where
  | subscription
  | accessToken
  | endpoint
  | groupPrefix
  | deleteTimeout
  deriving DecidableEq, Repr

def OptionName.ofText? (s : List Char) : Option OptionName :=
  if s = "subscription-id".toList then some .subscription
  else if s = "access-token".toList then some .accessToken
  else if s = "endpoint".toList then some .endpoint
  else if s = "group-prefix".toList then some .groupPrefix
  else if s = "delete-timeout".toList then some .deleteTimeout
  else none

/-- A number below `2 ^ 64` in decimal digits, which may have a plus sign. -/
def word? (cs : List Char) : Option Nat :=
  let digits := match cs with
    | '+' :: rest => rest
    | cs => cs
  if digits.isEmpty ∨ !digits.all Char.isDigit then none
  else
    let n := digits.foldl (fun n c => n * 10 + (c.toNat - 48)) 0
    if n < Nat.pow 2 64 then some n else none

/-- The options with one more; an option may be given once. -/
def Options.add? (o : Options) (name : OptionName) (value : List Char) : Option Options :=
  let text := String.ofList value
  match name with
  | .subscription => if o.subscription.isSome then none else some { o with subscription := text }
  | .accessToken => if o.accessToken.isSome then none else some { o with accessToken := text }
  | .endpoint => if o.endpoint.isSome then none else some { o with endpoint := text }
  | .groupPrefix => if o.groupPrefix.isSome then none else some { o with groupPrefix := text }
  | .deleteTimeout =>
    if o.deleteTimeout.isSome then none
    else (word? value).map fun n => { o with deleteTimeout := some n }

/-- What the arguments ask for. -/
inductive Request where
  | run (options : Options) (command : Command)
  | help
  | version
  /-- The arguments make no sense. -/
  | misuse

/-- What an argument is by its form. -/
inductive Form where
  /-- Two dashes alone: all that follows is no option. -/
  | dashes
  | long (name : List Char) (value : Option (List Char))
  | short (letters : List Char)
  | plain
  deriving DecidableEq, Repr

def Form.of (argument : String) : Form :=
  match argument.toList with
  | ['-', '-'] => .dashes
  | '-' :: '-' :: rest =>
    match Text.cutFirst '=' rest with
    | some (name, value) => .long name (some value)
    | none => .long rest none
  | '-' :: c :: rest => .short (c :: rest)
  | _ => .plain

/-- The arguments read so far at one place, before the command or after it. -/
structure State where
  options : Options := {}
  /-- The option that waits for its value. -/
  open? : Option OptionName := none
  /-- An option with its value, which has not been looked at. -/
  held? : Option (OptionName × List Char) := none
  arguments : List String := []
  onlyArguments : Bool := false

/-- The state with no option held; `none` if the option that was held is bad. -/
def State.settle (s : State) : Option State :=
  match s.held? with
  | none => some s
  | some (name, value) =>
    (s.options.add? name value).map fun options => { s with options, held? := none }

/-- What comes after one more argument: more of them, or the answer. -/
inductive Next where
  | more (state : State)
  | verb (verb : Verb)
  | helpFor
  | answer (request : Request)

/-- The command, or another word where one is expected. -/
def State.word (s : State) (argument : String) : Next :=
  if s.onlyArguments then .answer .misuse
  else match Verb.ofText? argument with
    | some verb => .verb verb
    | none => if argument = "help" then .helpFor else .answer .misuse

/-- An argument of the command. -/
def State.argument (s : State) (verb : Verb) (argument : String) : Next :=
  match s.settle with
  | none => .answer .misuse
  | some s =>
    if s.arguments.length < verb.arity then
      .more { s with arguments := s.arguments ++ [argument] }
    else .answer .misuse

/-- An argument that is no option. Before the command it is the command. -/
def State.plain (s : State) (argument : String) : Option Verb → Next
  | some verb => s.argument verb argument
  | none => s.word argument

/-- Letters after one dash. The first of them answers by itself. -/
def State.short (verb : Option Verb) : List Char → Request
  | 'h' :: _ => .help
  | 'V' :: _ => if verb.isNone then .version else .misuse
  | _ => .misuse

/-- An option by its name, with its value if that stands in the same argument. -/
def State.long (s : State) (verb : Option Verb) (name : List Char) : Option (List Char) → Next
  | none =>
    if name = "help".toList then .answer .help
    else if name = "version".toList ∧ verb.isNone then .answer .version
    else match OptionName.ofText? name with
      | some name => .more { s with open? := some name }
      | none => .answer .misuse
  | some value =>
    match (OptionName.ofText? name).bind fun name => s.options.add? name value with
    | some options => .more { s with options }
    | none => .answer .misuse

/-- The command takes a valid id at once, so that a bad one is found before what follows it. -/
def State.badId (s : State) (verb : Option Verb) : Bool :=
  verb == some .destroy && s.arguments.any fun a => (MachineId.decode a).toOption.isNone

def State.step (s : State) (verb : Option Verb) (argument : String) : Next :=
  if s.badId verb then .answer .misuse
  else if s.onlyArguments then s.plain argument verb
  else match s.open?, Form.of argument, s.settle with
    | some name, .plain, _ => .more { s with open? := none, held? := some (name, argument.toList) }
    | some _, _, _ => .answer .misuse
    | none, .dashes, _ => .more { s with onlyArguments := true }
    | none, .plain, _ => s.plain argument verb
    | none, _, none => .answer .misuse
    | none, .short letters, some _ => .answer (State.short verb letters)
    | none, .long name value, some s => s.long verb name value

/-- The command with all its arguments. -/
def commandOf? : Verb → List String → Option Command
  | .destroy, [id] => (MachineId.decode id).toOption.map .destroy
  | .deleteGroupIfEmpty, [region] => some (.deleteGroupIfEmpty region)
  | .encode, [region, name] => some (.encode region name)
  | _, _ => none

/-- The answer at the end of the arguments, after the state before the command. -/
def State.finish (s outer : State) (verb : Option Verb) : Request :=
  match s.open?, verb, s.settle, outer.settle with
  | none, some verb, some s, some outer =>
    match commandOf? verb s.arguments with
    | some command => .run (outer.options.overriddenBy s.options) command
    | none => .misuse
  | _, _, _, _ => .misuse

/-- Help is given for a command, or for help itself. -/
def helpFor : List String → Request
  | [] => .help
  | [name] => if (Verb.ofText? name).isSome || name == "help" then .help else .misuse
  | _ => .misuse

/-- Reads arguments, the first of them after the state `s`. Once there is a command, `outer` is the
state before it. -/
def readFrom : State → Option Verb → State → List String → Request
  | outer, verb, s, [] => s.finish outer verb
  | outer, verb, s, argument :: rest =>
    match s.step verb argument with
    | .more s => readFrom outer verb s rest
    | .verb verb => readFrom s (some verb) {} rest
    | .helpFor => helpFor rest
    | .answer request => request

/-- What the arguments ask for. -/
def read (arguments : List String) : Request := readFrom {} none {} arguments

end Decommission.CommandLine

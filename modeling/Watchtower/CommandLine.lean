import Watchtower.Configuration

/-!
# The command line

A setting is named by `--name value`, `--name=value`, or by a letter, as in `-l value`, `-lvalue` or
`-l=value`. Letters without a value may stand together in one word. A word that begins with a dash
is never a value, unless it is the dash alone. What the words leave open is taken from the
environment.

* `Switch` : what a name or a letter stands for;
* `Word` : a word of the command line by its shape;
* `takeWords` : what the words give; of several problems the first counts;
* `takeEnvironment` : what the environment adds;
* `configure` : the configuration that words and environment lead to;
* `Ending` : why there is none, with the exit code of the program.
-/

namespace Watchtower.CommandLine

/-- Why the program ends before it has a configuration that it can use. -/
inductive Ending
  | help
  | version
  | misused
  | refused (problem : ConfigProblem)
  deriving DecidableEq

def Ending.exitCode : Ending → Nat
  | help | version => 0
  | misused => 2
  | refused _ => 1

/-- What is said about a configuration that is refused. -/
def Ending.complaint? : Ending → Option String
  | refused problem =>
    let message := (Cause.invalidConfig problem).text
    some s!"Error: {message}"
  | _ => none

/-! ## Names -/

inductive Switch
  | setting (s : Setting)
  | verbose
  | help
  | version
  deriving DecidableEq

def settingName : Setting → String
  | .l1Endpoint => "l1-ws-endpoint"
  | .rollupEndpoint => "trusted-op-node-endpoint"
  | .signerKey => "signer-key"
  | .factory => "dispute-game-factory"
  | .gameType => "game-type"
  | .pollInterval => "poll-interval"
  | .gameWindow => "game-window"
  | .cacheSize => "output-cache-size"
  | .blockDistance => "block-distance"

def settingLetter? : Setting → Option Char
  | .l1Endpoint => some 'l'
  | .rollupEndpoint => some 't'
  | .signerKey => some 's'
  | .factory => some 'd'
  | _ => none

/-- The environment variable that a setting is taken from. -/
def settingVariable : Setting → String
  | .l1Endpoint => "OP_CHALLENGER_L1_WS"
  | .rollupEndpoint => "OP_CHALLENGER_TRUSTED_OP_NODE_RPC"
  | .signerKey => "OP_CHALLENGER_KEY"
  | .factory => "OP_CHALLENGER_DGF"
  | .gameType => "OP_CHALLENGER_GAME_TYPE"
  | .pollInterval => "OP_CHALLENGER_POLL_INTERVAL"
  | .gameWindow => "OP_CHALLENGER_GAME_WINDOW"
  | .cacheSize => "OP_CHALLENGER_OUTPUT_CACHE_SIZE"
  | .blockDistance => "OP_CHALLENGER_BLOCK_DISTANCE"

def verbosityVariable : String := "VERBOSITY"

def Switch.named? (name : String) : Option Switch :=
  if name = "v" then some verbose
  else if name = "help" then some help
  else if name = "version" then some version
  else (Setting.all.find? (settingName · = name)).map setting

def Switch.lettered? (letter : Char) : Option Switch :=
  if letter = 'v' then some verbose
  else if letter = 'h' then some help
  else if letter = 'V' then some version
  else (Setting.all.find? (settingLetter? · = some letter)).map setting

/-! ## Words -/

inductive Word
  /-- Two dashes: no word after them is a switch. -/
  | divider
  | name (name : String) (value? : Option String)
  | letters (letters : List Char)
  | plain (text : String)
  deriving DecidableEq

def Word.of (text : String) : Word :=
  match text.toList with
  | ['-', '-'] => divider
  | '-' :: '-' :: rest =>
    match rest.dropWhile (· ≠ '=') with
    | [] => name (.ofList rest) none
    | _ :: value => name (.ofList (rest.takeWhile (· ≠ '='))) (some (.ofList value))
  | '-' :: letter :: rest => letters (letter :: rest)
  | _ => plain text

/-- Gives a setting the value of a text. A setting is given once. -/
def give (s : Setting) (text : String) (g : Given) : Except Ending Given :=
  match g.value? s, s.read? text with
  | none, some value => .ok (g.set s value)
  | _, _ => .error .misused

/-- What letters in one word give, and the setting whose value is the next word. -/
def takeLetters : List Char → Given → Except Ending (Given × Option Setting)
  | [], g => .ok (g, none)
  | letter :: rest, g =>
    match Switch.lettered? letter with
    | none => .error .misused
    | some .help => .error .help
    | some .version => .error .version
    | some .verbose => takeLetters rest g.louder
    | some (.setting s) =>
      match rest with
      | [] => .ok (g, some s)
      | '=' :: value | value => (·, none) <$> give s (.ofList value) g

/-- What a name gives, and the setting whose value is the next word. -/
def takeName (name : String) (value? : Option String) (g : Given) :
    Except Ending (Given × Option Setting) :=
  match Switch.named? name, value? with
  | some (.setting s), some value => (·, none) <$> give s value g
  | some (.setting s), none => .ok (g, some s)
  | some .verbose, none => .ok (g.louder, none)
  | some .help, none => .error .help
  | some .version, none => .error .version
  | _, _ => .error .misused

/-- What words give, the first of them being the value of a setting if one is due. -/
def takeWords : (due : Option Setting) → List String → Given → Except Ending Given
  | none, [], g => .ok g
  | some _, [], _ => .error .misused
  | due, word :: words, g =>
    match due, Word.of word with
    | some s, .plain text => give s text g >>= takeWords none words
    | none, .name name value? => do
      let (g, due) ← takeName name value? g
      takeWords due words g
    | none, .letters letters => do
      let (g, due) ← takeLetters letters g
      takeWords due words g
    | none, .divider => if words.isEmpty then .ok g else .error .misused
    | _, _ => .error .misused

/-! ## The environment -/

/-- A setting that is not given takes the value of its variable. -/
def takeVariable (environment : String → Option String) (g : Given) (s : Setting) :
    Except Ending Given :=
  match g.value? s, environment (settingVariable s) with
  | none, some text => give s text g
  | _, _ => .ok g

def takeVerbosity (environment : String → Option String) (g : Given) : Except Ending Given :=
  match g.verbosity?, environment verbosityVariable with
  | none, some text =>
    match Text.signedBelow? 256 text.toList with
    | some level => .ok { g with verbosity? := some level }
    | none => .error .misused
  | _, _ => .ok g

def takeEnvironment (environment : String → Option String) (g : Given) : Except Ending Given :=
  takeVerbosity environment g >>= Setting.all.foldlM (takeVariable environment)

def configure (words : List String) (environment : String → Option String) :
    Except Ending Configuration := do
  let given ← takeWords none words {} >>= takeEnvironment environment
  let some configuration := given.complete? | throw .misused
  match configuration.problem? with
  | some problem => throw (.refused problem)
  | none => return configuration

end Watchtower.CommandLine

import TunnelKeeper.Net.Reading

/-!
# Arguments — the command line of the daemon

Two options take a value, which follows in the same word or in the next one, and one is a plain
flag; each may be given once.  The words are read from left to right, and the first one that asks
for help or is wrong decides.
-/

namespace TunnelKeeper.Daemon

/-- How the daemon is to run. -/
structure Arguments where
  /-- The file with the settings. -/
  config : Option String := none
  /-- Bring the last tunnel back, and end if there is none. -/
  autostart : Bool := false
  /-- Where clients connect to, in place of what the settings say. -/
  control : Option SocketAddress := none
deriving DecidableEq, Repr

/-- Why the daemon is not to run. -/
inductive Refusal where
  /-- The command line is wrong. -/
  | misuse
  /-- It asks for something that can be told at once. -/
  | help
  | version
deriving DecidableEq, Repr

namespace Arguments

/-- An option that takes a value. -/
inductive Key where
  | config
  | control
deriving DecidableEq, Repr

/-- Gives an option its value, once. -/
def set (a : Arguments) (key : Key) (value : List Char) : Except Refusal Arguments :=
  match key with
  | .config =>
    if a.config.isSome || value.isEmpty then .error .misuse
    else .ok { a with config := some (String.ofList value) }
  | .control =>
    match a.control, SocketAddress.read? (String.ofList value) with
    | none, some address => .ok { a with control := some address }
    | _, _ => .error .misuse

/-- Sets the flag, once. -/
def setAutostart (a : Arguments) : Except Refusal Arguments :=
  if a.autostart then .error .misuse else .ok { a with autostart := true }

/-- Whether a word starts with a dash and goes on. -/
def isDashed (word : List Char) : Bool := word.head? == some '-' && word != ['-']

/-- Reads an option by its name; `inline` is the value in the same word, if there is one.  Gives
what was set, or the option whose value is still to come. -/
def readLong (a : Arguments) (name : String) (inline : Option (List Char)) :
    Except Refusal (Arguments × Option Key) :=
  match name, inline with
  | "config", some value => (·, none) <$> a.set .config value
  | "config", none => .ok (a, some .config)
  | "control", some value => (·, none) <$> a.set .control value
  | "control", none => .ok (a, some .control)
  | "autostart", none => (·, none) <$> a.setAutostart
  | "help", none => .error .help
  | "version", none => .error .version
  | _, _ => .error .misuse

/-- Reads a word of one dash and letters. -/
def readShort (a : Arguments) : (letters : List Char) → Except Refusal (Arguments × Option Key)
  | ['c'] => .ok (a, some .config)
  | 'c' :: '=' :: value => (·, none) <$> a.set .config value
  | 'c' :: value => (·, none) <$> a.set .config value
  | 'h' :: _ => .error .help
  | 'V' :: _ => .error .version
  | _ => .error .misuse

/-- Reads one dashed word. -/
def readWord (a : Arguments) (word : List Char) : Except Refusal (Arguments × Option Key) :=
  match word with
  | '-' :: '-' :: rest =>
    let name := String.ofList (rest.takeWhile (· != '='))
    let inline := match rest.dropWhile (· != '=') with
      | _ :: value => some value
      | [] => none
    a.readLong name inline
  | '-' :: letters => a.readShort letters
  | _ => .error .misuse

/-- Reads the rest of the command line; `pending` is the option whose value comes next. -/
def readFrom (a : Arguments) : (pending : Option Key) → List String → Except Refusal Arguments
  | none, [] => .ok a
  | some _, [] => .error .misuse
  | some key, word :: words => do
    if isDashed word.toList then .error .misuse
    else readFrom (← a.set key word.toList) none words
  | none, "--" :: words => if words.isEmpty then .ok a else .error .misuse
  | none, word :: words => do
    let (a, pending) ← a.readWord word.toList
    readFrom a pending words

/-- The arguments of a command line. -/
def read (words : List String) : Except Refusal Arguments := ({} : Arguments).readFrom none words

example : read ["-cx.toml", "--autostart"] = .ok ⟨some "x.toml", true, none⟩ := rfl

example : read ["--config", "--help"] = .error .misuse := rfl

end Arguments

end TunnelKeeper.Daemon

namespace LinkGraph.Cli

structure Outcome where
  exit : Nat
  stdout : String := ""
  stderr : String := ""
  deriving DecidableEq, Repr

namespace Outcome

def success (stdout : String) : Outcome := { exit := 0, stdout }

def fatal (tool message : String) : Outcome :=
  { exit := 2, stderr := tool ++ ": " ++ message ++ "\n" }

end Outcome

inductive Refusal where
  | invalid
  | help
  | version
  deriving DecidableEq, Repr

/-- The usage itself is no part of this library, so a refusal only shows in the exit status. -/
def Refusal.outcome (tool : String) : Refusal → Outcome
  | .invalid => { exit := 2 }
  | .help => { exit := 0 }
  | .version => .success (tool ++ " 0.1.0\n")

def readId? (s : String) : Option Nat :=
  let digits := match s.toList with
    | '+' :: rest => rest
    | cs => cs
  if digits.isEmpty || !digits.all Char.isDigit then none
  else
    let n := digits.foldl (fun n c => n * 10 + (c.toNat - '0'.toNat)) 0
    if n < 18446744073709551616 then some n else none

inductive Form where
  | anything
  | id
  | path
  | oneOf (words : List String)
  deriving DecidableEq, Repr

def Form.accepts : Form → String → Bool
  | .anything, _ => true
  | .id, value => (readId? value).isSome
  | .path, value => value ≠ ""
  | .oneOf words, value => value ∈ words

/-- The arguments of one level: those of a tool, or those of one of its commands. Every option takes
a value. -/
structure Level where
  options : List (String × Form)
  positionals : List Form := []
  commands : List String := []

structure Scan where
  options : List (String × String) := []
  positionals : List String := []
  /-- An option with the value that follows it. It is judged when the level is read on. -/
  pending : Option (String × String) := none
  command : Option (String × List String) := none
  deriving DecidableEq, Repr

def longOption? (arg : String) : Option (String × Option String) :=
  match arg.toList with
  | '-' :: '-' :: rest =>
      let name := String.ofList (rest.takeWhile (· ≠ '='))
      match rest.dropWhile (· ≠ '=') with
      | [] => some (name, none)
      | _ :: value => some (name, some (String.ofList value))
  | _ => none

def shortOption? (arg : String) : Option Char :=
  match arg.toList with
  | '-' :: c :: _ => if c = '-' then none else some c
  | _ => none

def looksLikeOption (arg : String) : Bool :=
  (longOption? arg).isSome || (shortOption? arg).isSome

namespace Level

def isTool (level : Level) : Bool := !level.commands.isEmpty

def addOption (level : Level) (found : Scan) (name value : String) : Except Refusal Scan :=
  if (found.options.lookup name).isNone && (level.options.lookup name).any (·.accepts value) then
    .ok { found with options := found.options ++ [(name, value)] }
  else .error .invalid

def addPositional (level : Level) (found : Scan) (value : String) : Except Refusal Scan :=
  if level.positionals[found.positionals.length]?.any (·.accepts value) then
    .ok { found with positionals := found.positionals ++ [value] }
  else .error .invalid

def settle (level : Level) (found : Scan) : Except Refusal Scan :=
  match found.pending with
  | none => .ok found
  | some (name, value) => level.addOption { found with pending := none } name value

def help (level : Level) : List String → Refusal
  | [] => .help
  | [command] => if command = "help" || command ∈ level.commands then .help else .invalid
  | _ :: _ :: _ => .invalid

/-- Reads arguments in order; what asks for help ends the reading, but what stands before it is
judged. A command is left to its own level, and what is pending then stays so. After a double dash
nothing is an option or a command. -/
def scan (level : Level) (found : Scan) : List String → Except Refusal Scan
  | [] => level.settle found
  | arg :: rest =>
      if arg ∈ level.commands then .ok { found with command := some (arg, rest) }
      else if level.isTool && arg = "help" then .error (level.help rest)
      else do
        let found ← level.settle found
        if arg = "--" then rest.foldlM level.addPositional found
        else
          match longOption? arg, shortOption? arg with
          | some (name, value), _ =>
              if (level.options.lookup name).isSome then
                match value, rest with
                | some value, rest => do level.scan (← level.addOption found name value) rest
                | none, value :: rest =>
                    if looksLikeOption value then .error .invalid
                    else level.scan { found with pending := some (name, value) } rest
                | none, [] => .error .invalid
              else if value.isNone && name = "help" then .error .help
              else if value.isNone && name = "version" && level.isTool then .error .version
              else .error .invalid
          | none, some c =>
              if c = 'h' then .error .help
              else if c = 'V' && level.isTool then .error .version
              else .error .invalid
          | none, none => do level.scan (← level.addPositional found arg) rest

end Level

def required : Option α → Except Refusal α
  | some a => .ok a
  | none => .error .invalid

end LinkGraph.Cli

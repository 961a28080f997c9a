/-!
# Arguments

How a command line is cut into options and their values.  An option has a long name and may
have a short one; a value follows as the next argument, after an equals sign, or directly
after the short name.  The value of an option is only looked at when the next option begins or
the arguments end, so an unknown argument is reported before a bad value in front of it.
-/

namespace InterruptStress.CommandLine

/-- Why a command line is not carried out. -/
inductive Refusal where
  | displayHelp
  | displayVersion
  /-- Neither option nor subcommand was given where one is needed. -/
  | displayHelpOnMissing
  | missingRequired
  | missingSubcommand
  | invalidSubcommand
  /-- A value was attached to an option that takes none. -/
  | tooManyValues
  | unknownArgument
  /-- The value is missing or empty, or not one of those that are allowed. -/
  | invalidValue
  /-- The value cannot be read. -/
  | valueValidation
  /-- The option was given before. -/
  | argumentConflict
deriving DecidableEq, Inhabited

/-- Help and version were asked for and are shown; all else is an error of usage. -/
def Refusal.exitCode : Refusal → Int
  | displayHelp | displayVersion => 0
  | _ => 2

/-- What an option does; a value is read as a `V`. -/
inductive Action (V : Type) where
  | value (read : String → Except Refusal V)
  | switch
  | help
  | version

structure OptionSpec (V : Type) where
  long : String
  short : Option Char
  action : Action V

/-- An option of which the value is not settled yet. -/
structure Pending (V : Type) where
  long : String
  read : String → Except Refusal V
  value : Option String

/-- What has been given so far. -/
structure Given (V : Type) where
  values : List (String × V)
  switches : List String
  pending : Option (Pending V)

namespace Given
variable {V : Type}

def empty : Given V := ⟨[], [], none⟩

def value? (g : Given V) (long : String) : Option V := g.values.lookup long

def hasSwitch (g : Given V) (long : String) : Bool := g.switches.contains long

/-- Takes the value of an option, which must not have been given before. -/
def take (g : Given V) (p : Pending V) : Except Refusal (Given V) :=
  match p.value with
  | none => .error .invalidValue
  | some text =>
    if (g.value? p.long).isSome then .error .argumentConflict
    else (p.read text).map fun v => { g with values := g.values ++ [(p.long, v)] }

/-- Settles the option whose value is still open. -/
def settle (g : Given V) : Except Refusal (Given V) :=
  match g.pending with
  | none => .ok g
  | some p => take { g with pending := none } p

/-- Takes an option with the value attached to it, if there is one. -/
def takeOption (g : Given V) (o : OptionSpec V) (attached : Option String) :
    Except Refusal (Given V) := do
  match o.action with
  | .value read =>
    let g ← g.settle
    match attached with
    | some text => g.take ⟨o.long, read, some text⟩
    | none => return { g with pending := some ⟨o.long, read, none⟩ }
  | .switch =>
    if attached.isSome then .error .tooManyValues
    else
      let g ← g.settle
      if g.hasSwitch o.long then .error .argumentConflict
      else return { g with switches := o.long :: g.switches }
  | .help => if attached.isSome then .error .tooManyValues else let _ ← g.settle; .error .displayHelp
  | .version =>
    if attached.isSome then .error .tooManyValues else let _ ← g.settle; .error .displayVersion

/-- The last option still waits for a value. -/
def isWaiting (g : Given V) : Bool :=
  match g.pending with
  | some p => p.value.isNone
  | none => false

/-- Hands the option that waits its value. -/
def supply (g : Given V) (text : String) : Given V :=
  { g with pending := g.pending.map fun p => { p with value := some text } }

end Given

/-- The options and subcommands of one level of a command line. -/
structure Level (V : Type) where
  options : List (OptionSpec V)
  subcommands : List String

namespace Level
variable {V : Type}

/-- Takes the letters of an argument such as `-ab`: switches may be followed by more letters,
an option with a value takes the rest. -/
def takeShort (l : Level V) (g : Given V) : List Char → Except Refusal (Given V)
  | [] => .ok g
  | c :: rest =>
    match l.options.find? fun o => o.short == some c with
    | none => .error .unknownArgument
    | some o =>
      match o.action with
      | .value _ =>
        match rest with
        | [] => g.takeOption o none
        | '=' :: text => g.takeOption o (some (String.ofList text))
        | text => g.takeOption o (some (String.ofList text))
      | _ => do
        let g ← g.takeOption o none
        l.takeShort g rest

/-- Takes an argument such as `--name` or `--name=value`, without its dashes. -/
def takeLong (l : Level V) (g : Given V) (cs : List Char) : Except Refusal (Given V) :=
  let name := String.ofList (cs.takeWhile (· ≠ '='))
  let attached := match cs.dropWhile (· ≠ '=') with
    | [] => none
    | _ :: text => some (String.ofList text)
  match l.options.find? fun o => o.long == name with
  | none => .error .unknownArgument
  | some o => g.takeOption o attached

/-- Refuses an argument that is neither an option nor a value. -/
def surplus (l : Level V) (afterDashes : Bool) (arg : String) : Refusal :=
  if l.subcommands.isEmpty || (afterDashes && l.subcommands.contains arg) then .unknownArgument
  else .invalidSubcommand

/-- Takes the arguments of one level, up to the first that names a subcommand. -/
def take (l : Level V) (g : Given V) :
    List String → Except Refusal (Given V × Option (String × List String))
  | [] => .ok (g, none)
  | arg :: rest =>
    if !g.isWaiting && l.subcommands.contains arg then .ok (g, some (arg, rest))
    else
      match arg.toList with
      | ['-', '-'] =>
        match rest with
        | [] => .ok (g, none)
        | next :: _ => .error (l.surplus true next)
      | '-' :: '-' :: name => do
        let g ← l.takeLong g name
        l.take g rest
      | '-' :: c :: letters => do
        let g ← l.takeShort g (c :: letters)
        l.take g rest
      | _ => if g.isWaiting then l.take (g.supply arg) rest else .error (l.surplus false arg)

end Level

end InterruptStress.CommandLine

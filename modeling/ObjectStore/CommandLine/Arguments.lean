/-!
# Arguments

The arguments of a command are switches and operands. A switch is written with its letter (`-w`) or
with its name (`--write`); letters may stand together (`-wt tree`). A switch that takes a value finds
it right behind it (`-ttree`, `-t=tree`, `--type=tree`) or in the next argument. After `--`
everything is an operand.

Arguments are read from left to right by a state machine, `Reading.step`. The first argument that
does not fit ends the reading, and so does the wish for help.
-/

namespace ObjectStore.CommandLine

/-- A switch of a command. -/
structure Switch where
  letter : Option Char
  name : Option String
  takesValue : Bool
  /-- Whether the switch may be given more than once. -/
  repeats : Bool
  deriving DecidableEq

/-- What a command allows and needs. -/
structure Grammar where
  switches : List Switch
  /-- The least number of operands. -/
  least : Nat
  /-- The greatest number of operands. -/
  most : Nat
  /-- Whether the operands are paths, which may not be empty. -/
  paths : Bool

/-- The arguments that were given. -/
structure Arguments where
  /-- Switches with their values, in order. A switch without a value has an empty one. -/
  switches : List (Switch × String) := []
  operands : List String := []

/-- Why arguments do not lead to a command being run. -/
inductive Refusal where
  /-- They do not fit. -/
  | misuse
  /-- They ask for help. -/
  | help
  deriving DecidableEq

namespace Arguments

/-- Whether a switch is given. -/
def has (args : Arguments) (switch : Switch) : Bool := args.switches.any (·.1 == switch)

/-- The values of a switch, in order. -/
def values (args : Arguments) (switch : Switch) : List String :=
  (args.switches.filter (·.1 == switch)).map Prod.snd

/-- The value of a switch that is given at most once. -/
def value? (args : Arguments) (switch : Switch) : Option String := (args.values switch).head?

end Arguments

/-- Arguments read so far. -/
structure Reading where
  args : Arguments := {}
  /-- A switch that waits for its value. -/
  pending : Option Switch := none
  /-- Whether `--` was seen. -/
  operandsOnly : Bool := false

namespace Reading

/-- Take in a switch with its value. -/
def give (r : Reading) (switch : Switch) (value : String) : Except Refusal Reading :=
  if !switch.repeats && r.args.has switch then .error .misuse
  else .ok { r with
    args := { r.args with switches := r.args.switches ++ [(switch, value)] }
    pending := none }

/-- Take in an operand. -/
def operand (g : Grammar) (r : Reading) (text : String) : Except Refusal Reading :=
  if g.most ≤ r.args.operands.length || (g.paths && text.isEmpty) then .error .misuse
  else .ok { r with args := { r.args with operands := r.args.operands ++ [text] } }

/-- Take in switches written as letters. -/
def letters (g : Grammar) : List Char → Reading → Except Refusal Reading
  | [], r => .ok r
  | 'h' :: _, _ => .error .help
  | c :: rest, r =>
    match g.switches.find? fun switch => switch.letter == some c with
    | none => .error .misuse
    | some switch =>
      if switch.takesValue then
        match rest with
        | [] => .ok { r with pending := some switch }
        | '=' :: value => r.give switch (String.ofList value)
        | value => r.give switch (String.ofList value)
      else do letters g rest (← r.give switch "")

/-- Take in a switch written with its name. -/
def named (g : Grammar) (text : List Char) (r : Reading) : Except Refusal Reading :=
  let name := String.ofList (text.takeWhile (· != '='))
  let value := text.dropWhile (· != '=')
  if name = "help" then if value.isEmpty then .error .help else .error .misuse
  else match g.switches.find? fun switch => switch.name == some name with
    | none => .error .misuse
    | some switch =>
      match switch.takesValue, value with
      | true, [] => .ok { r with pending := some switch }
      | true, _ :: value => r.give switch (String.ofList value)
      | false, [] => r.give switch ""
      | false, _ :: _ => .error .misuse

/-- Take in one argument. Nothing that looks like a switch is taken for the value of one. -/
def step (g : Grammar) (r : Reading) (arg : String) : Except Refusal Reading :=
  if r.operandsOnly then r.operand g arg
  else match r.pending, arg.toList with
    | some _, '-' :: _ :: _ => .error .misuse
    | some switch, _ => r.give switch arg
    | none, ['-', '-'] => .ok { r with operandsOnly := true }
    | none, '-' :: '-' :: text => r.named g text
    | none, '-' :: c :: rest => r.letters g (c :: rest)
    | none, _ => r.operand g arg

end Reading

/-- Read the arguments of a command. -/
def Grammar.read (g : Grammar) (args : List String) : Except Refusal Arguments := do
  let r ← args.foldlM (Reading.step g) {}
  if r.pending.isSome || r.args.operands.length < g.least then .error .misuse else return r.args

end ObjectStore.CommandLine

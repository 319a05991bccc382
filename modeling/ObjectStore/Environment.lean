import ObjectStore.Command.Error
import ObjectStore.Signature
import ObjectStore.Timestamp.Written

/-!
# The environment of a command

Who makes a commit, and when, is said by environment variables: `GIT_AUTHOR_NAME`,
`GIT_AUTHOR_EMAIL` and `GIT_AUTHOR_DATE`, and the same three for the committer. A name and an email
are needed; a date that is not given is now.
-/

namespace ObjectStore

/-- What a command finds around it. -/
structure Environment where
  /-- The variables that are set, with their values. -/
  settings : List (String × String)
  /-- The moment at which the command runs. -/
  now : Timestamp

/-- Whom a signature is for. -/
inductive Role where
  | author
  | committer
  deriving DecidableEq

/-- The names of the variables of a role start with this text. -/
def Role.front : Role → String
  | author => "GIT_AUTHOR"
  | committer => "GIT_COMMITTER"

namespace Environment

/-- The value of a variable, if it is set. -/
def get? (env : Environment) (name : String) : Option String := env.settings.lookup name

/-- The value of a variable that has to be set. -/
def get (env : Environment) (name : String) : Except CommandError String :=
  (env.get? name).elim (.error (.missingVariable name)) .ok

/-- The date in a variable, or now. -/
def date (env : Environment) (name : String) : Except CommandError Timestamp :=
  match env.get? name with
  | some text => (Timestamp.ofWritten? text).elim (.error (.badDate text)) .ok
  | none => .ok env.now

/-- The signature for a role. -/
def signature (env : Environment) (role : Role) : Except CommandError Signature := do
  let name ← env.get (role.front ++ "_NAME")
  let email ← env.get (role.front ++ "_EMAIL")
  let time ← env.date (role.front ++ "_DATE")
  (Signature.make name email time).mapError fun fault => .store (.invalidSignature fault)

/-- The signature of the committer, who is the author unless somebody else is named. -/
def committer (env : Environment) : Except CommandError Signature :=
  if (env.get? (Role.committer.front ++ "_NAME")).isSome then env.signature .committer
  else env.signature .author

end Environment

end ObjectStore

/-!
# Commands

A command has a name and a line of help.  It may add its own arguments to a
parser, and what it does when it is run is registered apart, so that a command
without a run function can exist but not be executed.
-/

namespace Palette

/-- A command whose run sees a scheme and arguments, acts on a state and may fail;
it gives a code, or none. -/
structure Command (Parser Scheme Arguments State Failure Code : Type) where
  name : String
  help : String
  arguments? : Option (Parser → State → State)
  run? : Option (Scheme → Arguments → State → State × Except Failure (Option Code))

namespace Command

variable {Parser Scheme Arguments State Failure Code : Type}

inductive Fault (Failure : Type) where
  | noRunFunction (name : String)
  | run (failure : Failure)
deriving DecidableEq

/-- What is wrong with a command that cannot be run. -/
def noRunMessage (name : String) : String :=
  "Command " ++ name ++ " has no run function"

def start (name help : String) : Command Parser Scheme Arguments State Failure Code :=
  ⟨name, help, none, none⟩

/-- Registers the function that adds arguments. -/
def withArguments (c : Command Parser Scheme Arguments State Failure Code)
    (add : Parser → State → State) : Command Parser Scheme Arguments State Failure Code :=
  { c with arguments? := some add }

/-- Registers the run function in place of an earlier one. -/
def withRun (c : Command Parser Scheme Arguments State Failure Code)
    (run : Scheme → Arguments → State → State × Except Failure (Option Code)) :
    Command Parser Scheme Arguments State Failure Code :=
  { c with run? := some run }

def addArguments (c : Command Parser Scheme Arguments State Failure Code) (parser : Parser)
    (state : State) : State :=
  match c.arguments? with
  | some add => add parser state
  | none => state

/-- Runs a command and gives its code, which is zero if the run gives none. -/
def execute [OfNat Code 0] (c : Command Parser Scheme Arguments State Failure Code)
    (scheme : Scheme) (arguments : Arguments) (state : State) :
    State × Except (Fault Failure) Code :=
  match c.run? with
  | none => (state, .error (.noRunFunction c.name))
  | some run =>
      match run scheme arguments state with
      | (state, .ok code) => (state, .ok (code.getD 0))
      | (state, .error failure) => (state, .error (.run failure))

end Command
end Palette

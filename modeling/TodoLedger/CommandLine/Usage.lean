import TodoLedger.CommandLine.Log
import TodoLedger.CommandLine.Request
/-!
# Usage

What is shown instead of running a command.
-/

namespace TodoLedger

namespace Refusal

def usage : Text :=
  "usage: " ++ Logger.program.toText ++
    " [-h] [--version] [-c CONFIG] [-d] [--format json|console] <command> ...\n" ++
    "commands: " ++ Text.join " " (Command.readers.map Prod.fst) ++ "\n"

def text : Refusal → Text
  | misuse | help => usage
  | version => Logger.program.toText ++ " " ++ Logger.version.toText ++ "\n"

def exitCode : Refusal → Nat
  | misuse => 2
  | help | version => 0

end Refusal

end TodoLedger

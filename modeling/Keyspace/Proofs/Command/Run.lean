import Keyspace.Command.Execution

/-! # Runs: commands one after the other, and the history of commands and replies that they make -/
namespace Keyspace
set_option autoImplicit false

namespace Store

/-- The replies to commands, one after the other, and the store that they leave. -/
def perform : Store → List Command → List Reply × Store
  | s, [] => ([], s)
  | s, command :: commands =>
    let (reply, s) := command.execute s
    let (replies, s) := s.perform commands
    (reply :: replies, s)

theorem perform_cons (s : Store) (command : Command) (commands : List Command) :
    s.perform (command :: commands) =
      ((command.execute s).1 :: ((command.execute s).2.perform commands).1,
        ((command.execute s).2.perform commands).2) := rfl

/-- Each command of a run with the reply that it has there. -/
def history (s : Store) (commands : List Command) : List (Command × Reply) :=
  commands.zip (s.perform commands).1

theorem history_cons (s : Store) (command : Command) (commands : List Command) :
    s.history (command :: commands) =
      (command, (command.execute s).1) :: (command.execute s).2.history commands := rfl

end Store
end Keyspace

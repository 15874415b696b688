import Keyspace.Text.Quoted
import Keyspace.Command.Verb
import Keyspace.Stream.Fault

/-! # Errors: each cause, the class it belongs to, and the message that tells of it -/
namespace Keyspace
set_option autoImplicit false

inductive Error where
  | notANumber (word : String)
  | notAnInteger (word : String)
  | wrongArity (verb : Verb)
  | badDirection (word : String)
  | emptyCommand
  | lineTooLong (limit : UInt64)
  | lineNotUtf8
  | unknownCommand (word : String)
  | closedBeforeReply
  | closedMidReply
  | noConnections
  | noLineLength
  | io (fault : Fault)
  deriving DecidableEq, Repr, Inhabited

inductive ErrorClass where
  | parseFailure
  | invalidArgument
  | io
  | network
  | protocol
  | unknownCommand
  | config
  deriving DecidableEq, Repr, Inhabited

namespace Error

def errorClass : Error → ErrorClass
  | notANumber _ | notAnInteger _ => .parseFailure
  | wrongArity _ | badDirection _ => .invalidArgument
  | emptyCommand | lineTooLong _ | lineNotUtf8 => .protocol
  | unknownCommand _ => .unknownCommand
  | closedBeforeReply | closedMidReply => .network
  | noConnections | noLineLength => .config
  | io _ => .io

def message : Error → String
  | notANumber word => "Parse failure: score is not a number: " ++ word
  | notAnInteger word => "Parse failure: not an integer: " ++ word
  | wrongArity verb =>
    "Invalid argument: " ++ verb.name ++ " requires " ++ verb.arity.text ++ " argument(s)"
  | badDirection word =>
    "Invalid argument: direction must be LEFT or RIGHT, got " ++ Text.quoted word
  | emptyCommand => "Protocol error: empty command"
  | lineTooLong limit => "Protocol error: line exceeds " ++ Text.natText limit.toNat ++ " bytes"
  | lineNotUtf8 => "Protocol error: line is not valid UTF-8"
  | unknownCommand word => "Unknown command '" ++ word ++ "'"
  | closedBeforeReply => "Network error: connection closed before reply"
  | closedMidReply => "Network error: connection closed mid-reply"
  | noConnections => "Configuration error: max_connections must be at least 1"
  | noLineLength => "Configuration error: max_line_length must be at least 1"
  | io fault => "IO error: " ++ fault.text

end Error
end Keyspace

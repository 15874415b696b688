import Keyspace.Error

/-! # Configuration: where a server listens, and its limits -/
namespace Keyspace
set_option autoImplicit false

/-- A timeout is in milliseconds, and none for 0; a line is measured without its newline. -/
structure Config where
  listenAddr : String := "127.0.0.1:6379"
  maxConnections : UInt64 := 1024
  readTimeout : UInt64 := 0
  writeTimeout : UInt64 := 5000
  maxLineLength : UInt64 := 65536
  deriving DecidableEq, Repr, Inhabited

namespace Config

def validate (c : Config) : Except Error Unit :=
  if c.maxConnections = 0 then .error .noConnections
  else if c.maxLineLength = 0 then .error .noLineLength
  else .ok ()

end Config
end Keyspace

import DataRepository.Duration
import DataRepository.Server.State

/-!
# Faults of the server

Why a server cannot be set up, does not start, stops serving or is slow to stop.
-/
namespace DataRepository.Server

inductive Fault where
  | configuration (what : String)
  | bind (address cause : String)
  | acceptLoop (cause : String)
  | shutdownTimeout (limit : Duration)
  | invalidState (state : State)
deriving DecidableEq

namespace Fault

def text : Fault → String
  | configuration what => "configuration error: " ++ what
  | bind address cause => "failed to bind SBI server on " ++ address ++ ": " ++ cause
  | acceptLoop cause => "SBI accept loop failed: " ++ cause
  | shutdownTimeout limit => "SBI server shutdown did not drain within " ++ limit.text
  | invalidState state => "SBI server cannot start from state " ++ state.name

/-- Whether the program cannot go on: a shutdown that takes too long is only reported. -/
def isFatal : Fault → Bool
  | shutdownTimeout _ => false
  | _ => true

end Fault

end DataRepository.Server

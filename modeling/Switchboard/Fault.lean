import Switchboard.Duration
import Switchboard.IoFault

/-!
# Faults

Everything that can go wrong between two peers, by cause. `Fault.message` gives the words of each
and `Fault.isFatal` says which faults mean that the connection itself is gone, as opposed to a
failure of one call on it.
-/

namespace Switchboard

/-- What went wrong (`FabricError`). -/
inductive Fault where
  /-- The byte channel failed. -/
  | transport (cause : IoFault)
  /-- The upgrade handshake was refused or malformed. -/
  | upgrade (reason : String)
  /-- The multiplexed connection failed. -/
  | multiplexer (reason : String)
  /-- The session is closed. -/
  | closed
  /-- The call was not answered in time. -/
  | timeout (limit : Duration)
  /-- A message of the call could not be read, or was out of order. -/
  | malformed (reason : String)
  /-- The peer answered with an error. -/
  | remote (text : String)
  /-- The helper process could not be started or did not answer. -/
  | helper (reason : String)
  /-- The process was not started as a helper: this marker variable does not say so. -/
  | notAHelper (marker : String)
  /-- The configuration cannot be read or is not valid. -/
  | config (reason : String)
  deriving DecidableEq, Repr, Inhabited

namespace Fault

def message : Fault → String
  | transport cause => "Transport error: " ++ cause.text
  | upgrade reason => "Upgrade handshake failed: " ++ reason
  | multiplexer reason => "Multiplexer error: " ++ reason
  | closed => "Session closed"
  | timeout limit => "Call timed out after " ++ limit.text
  | malformed reason => "Malformed call payload: " ++ reason
  | remote text => "Remote error: " ++ text
  | helper reason => "Child process error: " ++ reason
  | notAHelper marker => "Not running as a spawned child: " ++ marker ++ " is not set to \"1\""
  | config reason => "Configuration error: " ++ reason

/-- Whether a fault means that the connection is gone (`is_connection_fatal`). -/
def isFatal : Fault → Bool
  | closed | multiplexer _ => true
  | _ => false

end Fault

/-- Why a multiplexed connection ended (`ConnectionError`). -/
inductive MuxFault where
  /-- The peer said goodbye, or the channel ended between two frames. -/
  | closed
  /-- The channel failed, or what came over it was no frame. -/
  | io (cause : IoFault)
  /-- Every stream number has been used. -/
  | noMoreStreamIds
  /-- The connection carries as many streams as it may. -/
  | tooManyStreams
  /-- The bytes received are no frame. -/
  | decode (reason : String)
  deriving DecidableEq, Repr, Inhabited

namespace MuxFault

def message : MuxFault → String
  | closed => "connection is closed"
  | io cause => "i/o error: " ++ cause.text
  | noMoreStreamIds => "number of stream ids has been exhausted"
  | tooManyStreams => "maximum number of streams reached"
  | decode reason => "decode error: " ++ reason

/-- A connection failure as a fault: a plain end closes the session, all else is a failure of the
multiplexer. -/
def toFault : MuxFault → Fault
  | closed => .closed
  | failure => .multiplexer failure.message

end MuxFault

end Switchboard

/-
  Accessors.Server.Transport — how an editor reaches the server.

  The server speaks over its standard streams, or listens on a host and a port written
  with a colon between them; what stands behind a second colon is not looked at. Without
  a port there is a usual one.
-/
import Accessors.Fault

namespace Accessors

inductive Transport where
  | stdio
  | tcp (host : Text) (port : Int)
  deriving DecidableEq, Repr

namespace Transport

def usualPort : Int := 2087

/-- The transport at a host with a port behind a colon. -/
def ofAddress (address : Text) : Except IntText.Fault Transport :=
  match Text.splitOn ':' address with
  | host :: port :: _ => (IntText.readText port).map (tcp host)
  | [host] => .ok (tcp host usualPort)
  | [] => .ok (tcp [] usualPort)

def ofText (t : Text) : Except Fault Transport :=
  if t = "stdio".toList then .ok stdio
  else match Text.after? "tcp:".toList t with
    | some address => (ofAddress address).mapError .wholeNumber
    | none => .error (.unknownTransport t)

end Transport

end Accessors

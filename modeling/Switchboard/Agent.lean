import Switchboard.Config
import Switchboard.Handshake.Exchange
import Switchboard.Network
import Switchboard.Session

/-!
# Agents

An agent dials a server and gives its key in a header of the upgrade request, before the headers
that its configuration adds. When the server switches protocols a session begins, in which the agent
plays the client.
-/

namespace Switchboard

/-- How an agent dials (`AgentDialer`). -/
structure Dialer where
  serverAddr : String
  upgradePath : String
  peerHeader : String
  peerKey : String
  headers : Headers := []
  deriving DecidableEq, Repr, Inhabited

namespace Dialer

def new (serverAddr peerKey : String) : Dialer :=
  let usual : Config := {}
  { serverAddr, upgradePath := usual.upgradePath, peerHeader := usual.peerHeader, peerKey }

/-- The dialer that a configuration describes (`from_config`). Its key is the name of the host
unless one is set. -/
def ofConfig (hostname : String) (config : Config) : Except Fault Dialer :=
  match config.agent with
  | none => .error (.config "missing `agent` section")
  | some agent =>
    .ok ⟨agent.serverAddr, config.upgradePath, config.peerHeader, agent.peerKey.getD hostname,
      agent.headers⟩

/-- The request of an agent: its key goes before its other headers. -/
def request (dialer : Dialer) : UpgradeRequest :=
  ⟨dialer.serverAddr, dialer.upgradePath, (dialer.peerHeader, dialer.peerKey) :: dialer.headers⟩

/-- Dial over a connection, which is made first (`connect`). A session begins if the server switches
protocols. -/
def dial (dialer : Dialer) (network : Network) (c : Connection) :
    HandshakeResult Session × Connection :=
  match network.connect dialer.serverAddr with
  | .error fault => (.failed (.transport fault), c)
  | .ok _ =>
    match c.seekUpgrade dialer.serverAddr dialer.request with
    | (.waiting, c) => (.waiting, c)
    | (.failed fault, c) => (.failed fault, c)
    | (.done (), c) => (.done (.start dialer.serverAddr dialer.serverAddr .client), c)

end Dialer

end Switchboard

/-
  Subject:   The relay's Durable Object (packages/relay/src/cloudflare-adapter.ts).

  One object holds the sockets of one daemon and its clients. A frame that a client sends while the
  daemon has no data socket for its connection is kept and handed over when one attaches.

  Whether a send on a socket throws is the runtime's doing: it is read off `sends`, which may depend
  on all that happened before. What is sent and closed is kept in `log`, oldest first, a frame with
  the connection it came from. Console output is left out.
-/
import Frogg.Library.JsString
import Mathlib.Data.List.Dedup

namespace Frogg.Relay

open Library Function

/-! ## 1. Sockets and state -/

inductive RelayProtocolVersion where
  | v1 | v2
  deriving DecidableEq, Repr

inductive ConnectionRole where
  | server | client
  deriving DecidableEq, Repr

/-- `string | ArrayBuffer` -/
inductive Frame where
  | text (data : String)
  | binary (data : List UInt8)
  deriving DecidableEq, Repr

structure RelaySessionAttachment where
  serverId : String
  role : ConnectionRole
  version : RelayProtocolVersion
  connectionId : Option String
  createdAt : Int
  deriving DecidableEq, Repr

/-- An accepted socket; `id` tells two sockets of one identity apart. -/
structure RelaySocket where
  id : Nat
  tags : List String
  attachment : RelaySessionAttachment
  deriving DecidableEq, Repr

/-- JSON messages of the relay itself. -/
inductive ControlMessage where
  | sync (connectionIds : List String)
  | connected (connectionId : String)
  | disconnected (connectionId : String)
  | pong (ts : Int)
  deriving DecidableEq, Repr

/-- What a socket is asked to send: a frame of a connection that was pending, a frame passed on at
    once, or a message of the relay. -/
inductive Outgoing where
  | pending (connectionId : String) (frame : Frame)
  | clientFrame (connectionId : String) (frame : Frame)
  | serverFrame (connectionId : String) (frame : Frame)
  | legacyFrame (frame : Frame)
  | control (message : ControlMessage)
  deriving DecidableEq, Repr

inductive RelayEffect where
  | send (target : RelaySocket) (message : Outgoing) (sent : Bool)
  | close (target : RelaySocket) (code : Nat) (reason : String)
  deriving DecidableEq, Repr

structure RelayState where
  sockets : List RelaySocket
  pendingFrames : String → List Frame
  log : List RelayEffect

/-- What the runtime decides: which sends succeed, given all that happened, and the clock. -/
structure RelayRuntime where
  sends : List RelayEffect → RelaySocket → Bool
  now : Int

namespace RelayState

variable (s : RelayState)

def getWebSockets (tag : String) : List RelaySocket :=
  s.sockets.filter fun ws => tag ∈ ws.tags

def close (s : RelayState) (target : RelaySocket) (code : Nat) (reason : String) : RelayState :=
  { s with log := s.log ++ [.close target code reason] }

def closeAll (targets : List RelaySocket) (code : Nat) (reason : String) : RelayState :=
  targets.foldl (fun s target => s.close target code reason) s

variable (connectionId : String)

def hasServerDataSocket : Bool :=
  !(s.getWebSockets ("server:" ++ connectionId)).isEmpty

def hasClientSocket : Bool :=
  !(s.getWebSockets ("client:" ++ connectionId)).isEmpty

end RelayState

/-! ## 2. Buffering and sending -/

section

variable (rt : RelayRuntime)

/-- A send, and whether it went through. -/
def send (s : RelayState) (target : RelaySocket) (message : Outgoing) : Bool × RelayState :=
  (rt.sends s.log target,
    { s with log := s.log ++ [.send target message (rt.sends s.log target)] })

/-- A loop that sends to each target and ignores what throws. -/
def sendAll (s : RelayState) (targets : List RelaySocket) (message : Outgoing) : RelayState :=
  targets.foldl (fun s target => (send rt s target message).2) s

def bufferFrame (s : RelayState) (connectionId : String) (message : Frame) : RelayState :=
  let existing := s.pendingFrames connectionId ++ [message]
  let kept := if 200 < existing.length then existing.drop (existing.length - 200) else existing
  { s with pendingFrames := update s.pendingFrames connectionId kept }

/-- The loop over the frames taken from the queue. -/
def flushLoop (connectionId : String) (serverWs : RelaySocket) :
    List Frame → RelayState → RelayState
  | [], s => s
  | frame :: frames, s =>
    match send rt s serverWs (.pending connectionId frame) with
    | (true, s) => flushLoop connectionId serverWs frames s
    -- the frame that could not be sent is buffered again, and the loop breaks
    | (false, s) => bufferFrame s connectionId frame

variable (s : RelayState)

def flushFrames (connectionId : String) (serverWs : RelaySocket) : RelayState :=
  let frames := s.pendingFrames connectionId
  if frames = [] then s
  else
    flushLoop rt connectionId serverWs frames
      { s with pendingFrames := update s.pendingFrames connectionId [] }

def listConnectedConnectionIds : List String :=
  ((s.getWebSockets "client").filterMap fun ws =>
    if ws.attachment.role = .client then ws.attachment.connectionId.filter (· ≠ "") else none).dedup

def notifyControls (message : ControlMessage) : RelayState :=
  (s.getWebSockets "server-control").foldl (fun s ws =>
    match send rt s ws (.control message) with
    | (true, s) => s
    | (false, s) => s.close ws 1011 "Control send failed") s

/-! ## 3. Connecting -/

/-- The query and the upgrade header of a request. -/
structure RelayRequest where
  upgrade : Option String
  role : Option String
  serverId : Option String
  connectionId : Option String
  v : Option String

inductive RelayResponse where
  | error (status : Nat) (body : String)
  | switchingProtocols
  deriving DecidableEq, Repr

def resolveRelayVersion : Option String → Option RelayProtocolVersion
  | none => some .v1
  | some rawValue =>
    let value := jsTrim rawValue
    if value = "" then some .v1
    else if value = "1" then some .v1
    else if value = "2" then some .v2
    else none

def requireWebSocketUpgrade (request : RelayRequest) : Option RelayResponse :=
  if (request.upgrade.map jsToLower) = some "websocket" then none
  else some (.error 426 "Expected WebSocket upgrade")

def parseRole : Option String → Option ConnectionRole
  | some "server" => some .server
  | some "client" => some .client
  | _ => none

/-- What the runtime supplies for a new connection: the socket's identity and the random part of an
    id the relay assigns. -/
structure Fresh where
  id : Nat
  random : String

variable (fresh : Fresh) (request : RelayRequest)

def fetchV1 (role : ConnectionRole) (serverId : String) : RelayResponse × RelayState :=
  match requireWebSocketUpgrade request with
  | some error => (error, s)
  | none =>
    let tag := match role with
      | .server => "server"
      | .client => "client"
    let s := s.closeAll (s.getWebSockets tag) 1008 "Replaced by new connection"
    let ws : RelaySocket := ⟨fresh.id, [tag], ⟨serverId, role, .v1, none, rt.now⟩⟩
    (.switchingProtocols, { s with sockets := s.sockets ++ [ws] })

/-- The identity a v2 connection resolves to. -/
inductive V2Identity where
  | client (connectionId : String)
  | serverControl
  | serverData (connectionId : String)
  deriving DecidableEq, Repr

def resolveV2Identity (role : ConnectionRole) (connectionId : String) : V2Identity :=
  match role with
  | .client => .client (if connectionId = "" then "conn_" ++ fresh.random else connectionId)
  | .server => if connectionId = "" then .serverControl else .serverData connectionId

def V2Identity.tags : V2Identity → List String
  | .client connectionId => ["client", "client:" ++ connectionId]
  | .serverControl => ["server-control"]
  | .serverData connectionId => ["server", "server:" ++ connectionId]

def V2Identity.role : V2Identity → ConnectionRole
  | .client _ => .client
  | .serverControl => .server
  | .serverData _ => .server

def V2Identity.connectionId : V2Identity → Option String
  | .client connectionId => some connectionId
  | .serverControl => none
  | .serverData connectionId => some connectionId

def closeExistingServerSockets : V2Identity → RelayState
  | .client _ => s
  | .serverControl =>
    s.closeAll (s.getWebSockets "server-control") 1008 "Replaced by new connection"
  | .serverData connectionId =>
    s.closeAll (s.getWebSockets ("server:" ++ connectionId)) 1008 "Replaced by new connection"

variable (identity : V2Identity)

/-- The socket of a v2 connection. -/
def v2Socket (serverId : String) : RelaySocket :=
  ⟨fresh.id, identity.tags, ⟨serverId, identity.role, .v2, identity.connectionId, rt.now⟩⟩

/-- A v2 connection once its identity is known. -/
def acceptV2 (serverId : String) : RelayState :=
  let ws := v2Socket rt fresh identity serverId
  let s := closeExistingServerSockets s identity
  let s := { s with sockets := s.sockets ++ [ws] }
  match identity with
  | .client connectionId => notifyControls rt s (.connected connectionId)
  | .serverControl => (send rt s ws (.control (.sync (listConnectedConnectionIds s)))).2
  | .serverData connectionId => flushFrames rt s connectionId ws

def fetchV2 (role : ConnectionRole) (serverId connectionId : String) : RelayResponse × RelayState :=
  match requireWebSocketUpgrade request with
  | some error => (error, s)
  | none =>
    (.switchingProtocols, acceptV2 rt s fresh (resolveV2Identity fresh role connectionId) serverId)

def fetch : RelayResponse × RelayState :=
  let connectionId := (request.connectionId.map jsTrim).getD ""
  match parseRole request.role with
  | none => (.error 400 "Missing or invalid role parameter", s)
  | some role =>
    match request.serverId.filter (· ≠ "") with
    | none => (.error 400 "Missing serverId parameter", s)
    | some serverId =>
      match resolveRelayVersion request.v with
      | none => (.error 400 "Invalid v parameter (expected 1 or 2)", s)
      | some .v1 => fetchV1 rt s fresh request role serverId
      | some .v2 => fetchV2 rt s fresh request role serverId connectionId

/-! ## 4. Messages and closes -/

variable (ws : RelaySocket)

/-- The keepalive of the control socket. `isPing` says that the text parses as a JSON record whose
    type is `"ping"`. -/
def handleControlKeepalive (isPing : Bool) : RelayState :=
  if isPing then (send rt s ws (.control (.pong rt.now))).2 else s

def webSocketMessage (message : Frame) (isPing : Bool) : RelayState :=
  match ws.attachment.version with
  | .v1 =>
    let targetRole := match ws.attachment.role with
      | .server => "client"
      | .client => "server"
    sendAll rt s (s.getWebSockets targetRole) (.legacyFrame message)
  | .v2 =>
    match ws.attachment.connectionId.filter (· ≠ "") with
    | none =>
      match message with
      | .text _ => handleControlKeepalive rt s ws isPing
      | .binary _ => s
    | some connectionId =>
      match ws.attachment.role with
      | .client =>
        let servers := s.getWebSockets ("server:" ++ connectionId)
        if servers = [] then bufferFrame s connectionId message
        else sendAll rt s servers (.clientFrame connectionId message)
      | .server =>
        sendAll rt s (s.getWebSockets ("client:" ++ connectionId))
          (.serverFrame connectionId message)

def webSocketClose : RelayState :=
  match ws.attachment.version with
  | .v1 => s
  | .v2 =>
    match ws.attachment.connectionId.filter (· ≠ "") with
    | none => s
    | some connectionId =>
      match ws.attachment.role with
      | .client =>
        if (s.getWebSockets ("client:" ++ connectionId)).any (fun socket => socket ≠ ws) then s
        else
          let s := { s with pendingFrames := update s.pendingFrames connectionId [] }
          let s := s.closeAll (s.getWebSockets ("server:" ++ connectionId)) 1001
            "Client disconnected"
          notifyControls rt s (.disconnected connectionId)
      | .server =>
        s.closeAll (s.getWebSockets ("client:" ++ connectionId)) 1012 "Server disconnected"

/-! ## 5. The two timers of a client connection -/

variable (connectionId : String)

/-- After ten seconds: nudge the daemon, unless it has reacted. Answers whether the second timer is
    set. -/
def firstNudge : Bool × RelayState :=
  if !s.hasClientSocket connectionId then (false, s)
  else if s.hasServerDataSocket connectionId then (false, s)
  else (true, notifyControls rt s (.sync (listConnectedConnectionIds s)))

/-- Five seconds later: force the daemon to reconnect. -/
def secondNudge : RelayState :=
  if !s.hasClientSocket connectionId then s
  else if s.hasServerDataSocket connectionId then s
  else s.closeAll (s.getWebSockets "server-control") 1011 "Control unresponsive"

end

end Frogg.Relay

import LogIntake.Files
import LogIntake.Http.Address
import LogIntake.Http.Handler
import LogIntake.Operator.Registry

/-!
The operator that brings in entries over HTTP: its settings and the life of its server. The state is
shared with the server's task; the task alone ends a server.
-/
namespace LogIntake.Http

structure InputSettings where
  listenAddress : SocketAddress
  maxBodySize : Nat := 10 * 1024 * 1024
  auth : AuthSettings := {}

namespace InputSettings

def decodeAddress : Toml.Source → Toml.Tree Toml.Literal → Except Toml.DecodeError SocketAddress :=
  Toml.decodeParsed "socket address" fun s =>
    match SocketAddress.read? s with
    | some a => .ok a
    | none => .error (.other "invalid socket address syntax")

def fields : List (Toml.Field InputSettings) :=
  [.of "listen_address" .required decodeAddress fun a s => { s with listenAddress := a },
   .of "max_body_size" .defaulted (Toml.decodeNatural "u64" (1 <<< 64))
     fun n s => { s with maxBodySize := n },
   .of "auth" .defaulted
     (fun source => Toml.decodeRecord "AuthConfig" AuthSettings.fields {} source)
     fun a s => { s with auth := a }]

/-- What the fields are set in; the address is required, so it never stays. -/
def start : InputSettings := { listenAddress := .four [0, 0, 0, 0] 0 }

def ofTable : Toml.Table → Except Failure InputSettings :=
  OperatorType.settings "HttpInputConfig" fields start

end InputSettings

inductive ServerState where
  | stopped
  | starting
  | running
  /-- Waits for the requests under way. -/
  | stopping
deriving DecidableEq, Inhabited, Repr

def ServerState.name : ServerState → String
  | stopped => "stopped"
  | starting => "starting"
  | running => "running"
  | stopping => "stopping"

structure Input where
  id : String
  listenAddress : SocketAddress
  handler : Handler
  state : ServerState := .stopped
  /-- Whether the operator still holds the means to shut a server down. -/
  canShutDown : Bool := false
  /-- Whether an address has been bound. -/
  bound : Bool := false

namespace Input

def ofSettings (id : String) (s : InputSettings) : Except Failure Input :=
  match Auth.ofSettings s.auth with
  | .error e => .error ((Failure.mk e.message []).context "invalid auth config")
  | .ok auth =>
    if s.maxBodySize = 0 then .error ⟨"max_body_size must be greater than zero", []⟩
    else .ok { id, listenAddress := s.listenAddress, handler := ⟨auth, s.maxBodySize⟩ }

/-- Starts a server, given what binding the address gives. Where it succeeds, a task is spawned. -/
def start (bind : Except SystemFault Unit) (i : Input) : Input × Except Failure Unit :=
  if i.state ≠ .stopped then
    (i, .error ⟨"http input '" ++ i.id ++ "' is already started", []⟩)
  else
    match bind with
    | .error fault =>
      (i, .error ⟨"failed to listen on " ++ i.listenAddress.text, [fault.message]⟩)
    | .ok () => ({ i with state := .running, canShutDown := true, bound := true }, .ok ())

/-- Stops the operator. Says whether the last server that was started is told to shut down. -/
def stop (i : Input) : Input × Bool :=
  if i.canShutDown then
    ({ i with
        state := if i.state = .running then .stopping else i.state
        canShutDown := false }, true)
  else (i, false)

def taskEnded (i : Input) : Input := { i with state := .stopped }

end Input

/-- The type of the operator under a given name, made into operators of any kind that has room for
it. -/
def Input.operatorType {σ : Type} (name : String) (of : Input → σ) : OperatorType σ :=
  .ofRecord name .input "HttpInputConfig" InputSettings.fields InputSettings.start fun id s =>
    (Input.ofSettings id s).map of

def Input.idleTask : Task := .awaitShutdown (.finish (.ok ()))

def Input.taskResult (served : Except Failure Unit) : Except Failure Unit :=
  served.mapError (Failure.context "http server failed")

/-- Starts the operator, given what binding the address gives. A server that starts leaves its task
behind. -/
def Input.launch (bind : Except SystemFault Unit) (i : Input) : Started Input :=
  match i.start bind with
  | (i, .ok ()) => { operator := i, tasks := [Input.idleTask] }
  | (i, .error e) => { operator := i, outcome := .error e }

instance : Operator Input where
  start i := i.launch (.ok ())
  stop i := { operator := i.stop.1 }

end LogIntake.Http

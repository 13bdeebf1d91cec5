import DataRepository.Exchange
import DataRepository.Program
import DataRepository.Settings.InstanceId
import Std.Async.Signal
import Std.Async.Timer
import Std.Http.Server
import Std.Internal.UV.System
import Std.Sync.Mutex
import Std.Time.Format

/-!
# The command line

Runs the program: reads variables and files, listens for plain connections, hands each request to the
service, and stops at a signal.  What is decided, answered and recorded is decided elsewhere.
-/
namespace DataRepository.CommandLine

open Std.Async (Async)
open Telemetry (Event Filter)

/-! ## Reading -/

def content? (path : String) : IO (Option Bytes) := do
  try
    return some (← IO.FS.readBinFile path).toList
  catch _ => return none

/-- Why a file cannot be opened to add to it. -/
def appendFault? (path : String) : IO (Option String) := do
  try
    IO.FS.withFile path .append fun _ => pure ()
    return none
  catch e => return some (toString e)

/-- The contents of the files that can be read among those named. -/
def filesNamed (paths : List String) : IO (String → Option Bytes) := do
  let contents ← paths.mapM fun path => return (path, ← content? path)
  return fun path => (contents.find? (·.1 = path)).bind (·.2)

/-- What is found outside of the program, once its settings are known. -/
def surroundings (s : Settings) : IO Server.Surroundings := do
  let paths := s.listener.keyFiles.resolved
  let secured := s.listener.scheme = Server.Scheme.https.name
  let file? ← filesNamed (if secured then [paths.certificate, paths.key] else [])
  let appendFault ← match s.keyLogPath with
    | some path => if secured then appendFault? path else pure none
    | none => pure none
  return { file?, appendFault? := fun _ => appendFault }

/-! ## Recording -/

def record (events : List Event) : IO Unit := do
  let now ← Std.Time.Timestamp.now
  let time := (Std.Time.DateTime.ofTimestamp now .UTC).toISO8601String
  let out ← IO.getStdout
  for e in events do
    out.putStrLn (e.toJson time).text
  out.flush

/-! ## Serving -/

/-- The service: its gate, its documents, and what is recorded of it. -/
structure Service where
  gate : Access.Gate
  store : Std.Mutex Store
  filter : Filter
  span : Telemetry.Span

/-- A request as the service sees it, if it names a target. -/
def request? (head : Std.Http.Request.Head) (body : ByteArray) : Option Http.Request :=
  (Http.Target.parse? (toString head.uri)).map fun target => {
    method := Http.Method.ofName (toString head.method)
    target
    headers := head.headers.toList.map fun (name, value) =>
      (toString name, Text.bytes (toString value))
    body := body.toList }

def response (r : Http.Response) : Async (Std.Http.Response Std.Http.Body.Full) := do
  let header (b : Std.Http.Response.Builder) (name : String) (value : Option String) :=
    (value.bind (b.header? name)).getD b
  let status := (Std.Http.Status.ofCode none r.status).getD .internalServerError
  let b := Std.Http.Response.new.status status
  let b := header b "content-type" r.contentType
  let b := header b "location" r.location
  let b := header b "allow" (if r.allow.isEmpty then none else some r.allowText)
  b.fromBytes r.body.toUTF8

/-- Answers a request, whose body may not have come in time. -/
def Service.answer (s : Service) (head : Std.Http.Request.Head) (body? : Option ByteArray) :
    Async (Std.Http.Response Std.Http.Body.Full) := do
  let now := (← Std.Time.Timestamp.now).toSecondsSinceUnixEpoch.val.toNat.toUInt64
  match request? head (body?.getD .empty) with
  | none => response { status := 400 }
  | some r =>
    let (answer, events) ← s.store.atomically do
      let store ← get
      let (answer, after) := Exchange.attend body?.isNone s.gate now r store
      set after
      return (answer, Exchange.events body?.isNone s.gate now r store)
    record (s.filter.apply (events.map fun e => { e with span := s.span }))
    response answer

instance : Std.Http.Server.Handler Service where
  ResponseBody := Std.Http.Body.Full
  onRequest s r := do
    let whole : Async (Option ByteArray) := some <$> r.body.readAll
    let late : Async (Option ByteArray) := do
      Std.Async.sleep (.ofNat Exchange.timeLimit)
      return none
    s.answer r.line (← Async.race whole late)

def stopSignal : Async Unit := do
  let term ← Std.Async.Signal.Waiter.mk .sigterm false
  let int ← Std.Async.Signal.Waiter.mk .sigint false
  Std.Async.Selectable.one #[
    .case term.selector fun _ => pure (),
    .case int.selector fun _ => pure ()]

/-- Opens the socket of an endpoint and serves there, or says why it cannot. -/
def serve (e : Server.Endpoint) (l : ListenerSettings) (service : Service) :
    Async (Except String Std.Http.Server) := do
  match e.scheme, Std.Net.IPv4Addr.ofString l.address with
  | .https, _ => return .error "secured connections cannot be served"
  | .http, none => return .error "invalid socket address"
  | .http, some address =>
    try
      return .ok (← Std.Http.Server.serve (.v4 ⟨address, l.port⟩) service)
    catch error => return .error (toString error)

/-- Shuts a server down and says what that comes to. -/
def shutdown (server : Std.Http.Server) (limit : UInt64) : Async Server.Outcome := do
  server.shutdown
  Std.Async.Selectable.one #[
    .case server.waitShutdownSelector fun _ => pure .drained,
    .case (← Std.Async.Selector.sleep (.ofNat limit.toNat)) fun _ => pure .timedOut]

def runWith (env : Program.Environment) (s : Settings) : IO Program.Ending := do
  let (filter, complaints) := Program.filter env s
  complaints.forM fun c => IO.eprintln c
  let around ← surroundings s
  let service : Service := {
    gate := ⟨.dataRepository, s.policy⟩, store := ← Std.Mutex.new Store.empty, filter
    span := Program.span s }
  let served ← match Server.Endpoint.prepare around s with
    | .ok e => (serve e s.listener service).block
    | .error _ => pure (.error "")
  let listenFault? := match served with
    | .ok _ => none
    | .error cause => some cause
  let (events, launched) :=
    Program.launch { env with around := { around with listenFault? := fun _ => listenFault? } } s
  record (filter.apply events)
  match launched, served with
  | .ok running, .ok server =>
    let outcome ← (stopSignal *> shutdown server s.drainMilliseconds).block
    let (events, ending) := Program.finish running .signal outcome 0
    record (filter.apply events)
    return ending
  | .error ending, _ => return ending
  | .ok _, .error _ => return { exitCode := 1 }

def run : IO Program.Ending := do
  let vars := (← Std.Internal.UV.System.osEnviron).toList
  let paths := (vars.filter (·.1 = "UDR_CONFIG")).map (·.2)
  let env : Program.Environment := {
    vars
    around := { file? := ← filesNamed paths }
    freshId := InstanceId.ofRandom (← IO.getRandomBytes 16).toList }
  match Program.settings env with
  | .ok s => runWith env s
  | .error why => return Program.refused why

end DataRepository.CommandLine

/-- Runs the program and prints what it complains about. -/
def main : IO UInt32 := do
  let ending ← DataRepository.CommandLine.run
  ending.complaints.forM fun c => IO.eprintln c
  return ending.exitCode.toUInt32

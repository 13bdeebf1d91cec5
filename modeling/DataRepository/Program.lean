import DataRepository.Server.Endpoint
import DataRepository.Settings.Record
import DataRepository.Telemetry.Filter

/-!
# The program

A run of the program: it loads its settings, listens, serves until it is told to stop or its accept
loop dies, drains and ends.  Here is what each part of a run records and how the run ends; the serving
itself is the business of the server.

- `Program.exitCode_launch`: a run that does not come to serve ends with code 1.
-/
namespace DataRepository

open Telemetry (Event Filter)

namespace Program

def version : String := "0.1.0"

structure Environment where
  vars : List (String × String)
  around : Server.Surroundings
  /-- The name of an instance that the settings do not name. -/
  freshId : String

/-- How a run ends: its code and what it prints about it. -/
structure Ending where
  exitCode : UInt8
  complaints : List String := []
deriving DecidableEq

/-- A program that serves. -/
structure Running where
  settings : Settings
  endpoint : Server.Endpoint
  server : Server

/-! ## Starting -/

/-- The configuration file that the variables name.  It must be text. -/
def file (env : Environment) : Settings.File :=
  match env.vars.find? (·.1 = "UDR_CONFIG") with
  | none => .unnamed
  | some (_, path) =>
    match (env.around.file? path).bind Text.decode? with
    | some content => .text content
    | none => .unreadable

/-- The variables that are settings, by their names after the mark of the program. -/
def settings (env : Environment) : Except Settings.LoadError Settings :=
  Settings.load env.freshId (file env) env.vars

/-- The log filter: that of the variable for it, if there is one without a fault, or else that of the
settings, whose faults are complained about. -/
def filter (env : Environment) (s : Settings) : Filter × List String :=
  match (env.vars.find? (·.1 = "RUST_LOG")).bind fun v => Filter.ofText? v.2 with
  | some f => (f, [])
  | none =>
    (Filter.ofTextLossy s.logLevel, (Filter.faults s.logLevel).map fun (d, flaw) =>
      "ignoring `" ++ d ++ "`: " ++ flaw.text)

def span (s : Settings) : Telemetry.Span := { component := "sbi", instanceId := s.instanceId }

def event (message : String) (fields : Members) : Event :=
  { level := .info, target := "udr", message, fields }

def serverEvent (s : Settings) (message : String) (fields : Members) : Event :=
  { level := .info, target := "udr::sbi::server", message, fields, span := span s }

def listenerEvent (s : Settings) (message : String) (fields : Members) : Event :=
  { serverEvent s message fields with target := "udr::sbi::binder" }

def endpointFields (e : Server.Endpoint) : Members :=
  [("addr", .string e.address), ("scheme", .string e.scheme.name)]

def openingEvents (s : Settings) : List Event :=
  [event "udr starting" [("version", .string version), ("nf_instance_id", .string s.instanceId)],
    event "security context ready" [("oauth2_required", .bool s.tokenRequired)]]

/-- The events of a secured endpoint whose files have been read. -/
def identityEvents (s : Settings) (e : Server.Endpoint) : List Event :=
  let paths := s.listener.keyFiles.resolved
  match e.scheme with
  | .http => []
  | .https =>
    [listenerEvent s "TLS material loaded"
      [("cert", .string paths.certificate), ("key", .string paths.key)]]

def listeningEvents (s : Settings) (e : Server.Endpoint) : List Event :=
  [listenerEvent s "SBI listener bound" (endpointFields e),
    event "SBI server bound" (endpointFields e),
    serverEvent s "starting SBI server" (endpointFields e)]

def failed (s : Settings) (fault : Server.Fault) : List Event × Ending :=
  ([{ serverEvent s "bind router error" [("error", .string fault.text)] with level := .error }],
    { exitCode := 1, complaints := ["Error: " ++ fault.text] })

/-- The part of a run before it serves, with the settings it has loaded by then. -/
def launch (env : Environment) (s : Settings) : List Event × Except Ending Running :=
  let opening := openingEvents s
  match Server.Endpoint.prepare env.around s with
  | .error fault =>
    let (events, ending) := failed s fault
    (opening ++ events, .error ending)
  | .ok endpoint =>
    let opening := opening ++ identityEvents s endpoint
    match endpoint.listen env.around with
    | .error fault =>
      let (events, ending) := failed s fault
      (opening ++ events, .error ending)
    | .ok server =>
      (opening ++ listeningEvents s endpoint, .ok ⟨s, endpoint, server.start.1⟩)

/-- A run whose settings cannot be used.  A key without a name breaks it off. -/
def refused (why : Settings.LoadError) : Ending :=
  match why with
  | .namelessKey => { exitCode := 101, complaints := ["", why.text] }
  | _ =>
    { exitCode := 1
      complaints := ["ERROR: configuration invalid: " ++ why.text, "Error: " ++ why.text] }

/-! ## Ending -/

/-- Why a run stops to serve. -/
inductive Cause where
  | signal
  | fault (f : Server.Fault)

def Cause.event : Cause → Event
  | signal => Program.event "termination signal received" []
  | fault f =>
    let e := Program.event (if f.isFatal then "SBI server failed" else "SBI server stopped")
      [("error", .string f.text)]
    { e with level := if f.isFatal then .error else .warn }

def Cause.ending : Cause → Ending
  | signal => { exitCode := 0 }
  | fault f =>
    if f.isFatal then { exitCode := 1, complaints := ["Error: " ++ f.text] } else { exitCode := 0 }

/-- The events of a shutdown that comes to this outcome, while `left` connections were still open at
the deadline. -/
def shutdownEvents (s : Settings) (stopped : Bool) (outcome : Server.Outcome) (left : Nat) :
    List Event :=
  let limit := s.drainTime
  let begun := serverEvent s "shutting down SBI server" [("timeout", .string limit.text)]
  let loop := { serverEvent s "accept loop stopped by shutdown" [] with level := .debug }
  let drained := serverEvent s "SBI server drained" []
  let overdue := { serverEvent s "HTTP server shutdown failed, closing remaining connections"
      [("error", .string (Server.Fault.shutdownTimeout limit).text),
        ("open_connections", .number (.whole (Whole.ofWord left.toUInt64)))] with level := .warn }
  let stops := if stopped then [loop] else []
  match outcome with
  | .drained => begun :: stops ++ [drained]
  | .timedOut => begun :: stops ++ [overdue]
  | .notStarted => [serverEvent s "SBI server closed before it was started" []]
  | .alreadyClosed => []

/-- The last events of a run. -/
def closingEvents (outcome : Server.Outcome) (state : Server.State) : List Event :=
  let closed := match outcome with
    | .timedOut =>
      { event "SBI server closed after drain deadline" [("state", .string state.name)] with
        level := .warn }
    | _ =>
      event "SBI server closed" [("outcome", .string outcome.name), ("state", .string state.name)]
  [closed, event "udr stopped" []]

/-- The outcome that a shutdown call is reported to come to. -/
def outcome? (reports : List Server.Report) (call : Nat) : Option Server.Outcome :=
  reports.findSome? fun r =>
    match r with
    | .shutdown c o => if c = call then some o else none
    | .start _ => none

/-- The end of a run whose shutdown comes to this outcome. -/
def finish (r : Running) (cause : Cause) (outcome : Server.Outcome) (left : Nat) :
    List Event × Ending :=
  (cause.event :: shutdownEvents r.settings r.server.accepting outcome left ++
    closingEvents outcome .closed, cause.ending)

/-- What the shutdown of a server without clients comes to. -/
def quietOutcome (server : Server) : Server.Outcome :=
  let (server, outcome) := server.shutdown 0
  (outcome <|> outcome? server.settle.2 0).getD .timedOut

/-- A run that nobody connects to, from its start to a signal: what it records and how it ends. -/
def run (env : Environment) : List Event × Ending :=
  match settings env with
  | .error why => ([], refused why)
  | .ok s =>
    let (filter, complaints) := filter env s
    let (events, ending) :=
      match launch env s with
      | (events, .error ending) => (events, ending)
      | (events, .ok running) =>
        let (more, ending) := finish running .signal (quietOutcome running.server) 0
        (events ++ more, ending)
    (filter.apply events, { ending with complaints := complaints ++ ending.complaints })

/-- **A run that does not come to serve ends with code 1.** -/
theorem exitCode_launch {env : Environment} {s : Settings} {ending : Ending}
    (h : (launch env s).2 = .error ending) : ending.exitCode = 1 := by
  simp only [launch] at h
  split at h
  · simp only [failed] at h
    cases h
    rfl
  · split at h
    · simp only [failed] at h
      cases h
      rfl
    · cases h

end Program

end DataRepository

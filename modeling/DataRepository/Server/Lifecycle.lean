import DataRepository.Server.Connection
import DataRepository.Server.Fault

/-!
# The life of a server

A server accepts connections, answers the requests on them and, once a shutdown is called for, drains:
it stops accepting, lets each connection finish what is in flight, and closes what is still open when
the time for that is over.  Each thing that can happen is an event; `Server.step?` says when it can
happen, what it changes and what it reports.

- `Server.settle_shutdown_of_unused`: a shutdown of a server without connections closes it.
-/
namespace DataRepository

namespace Server

/-! ## Progress -/

/-- How far a drain has come: it has been called for, it waits for the accept loop to stop, for the
connections to end by themselves, or for those to end that are forced to. -/
inductive Drain where
  | called
  | stopping
  | waiting
  | forcing
deriving DecidableEq

/-- What is known of the end of the accept loop: nothing before the start, nothing yet, or that it has
stopped, with the fault that made it stop. -/
inductive Signal where
  | absent
  | pending
  | resolved (fault : Option Fault)
deriving DecidableEq

inductive Event where
  /-- A call to start. -/
  | start
  /-- A call to shut down. -/
  | shutdown (call : Nat)
  /-- The call that waits for a shutdown is given up. -/
  | abandon (call : Nat)
  /-- The accept loop takes a connection. -/
  | accept
  /-- Accepting fails, for a reason that lies in one connection or in the listener. -/
  | acceptFault (ofConnection : Bool) (cause : String)
  /-- The accept loop notices that it is to stop. -/
  | loopStop
  /-- Something happens to a connection. -/
  | on (connection : Nat) (event : Connection.Event)
  /-- The drain gives the signal to stop. -/
  | drainStart
  /-- The drain finds that the accept loop has stopped. -/
  | joined
  /-- The time for connections to end by themselves is over.  A drain that finds none open is not
  late. -/
  | deadline
  /-- The drain finds that all connections have ended. -/
  | drainEnd
deriving DecidableEq

/-- What a call comes to. -/
inductive Report where
  | start (result : Except Fault Unit)
  | shutdown (call : Nat) (outcome : Outcome)

end Server

structure Server where
  /-- Whether connections are secured before they carry requests. -/
  secured : Bool := false
  state : Server.State := .unstarted
  /-- Whether the listening socket is open. -/
  listening : Bool := true
  /-- Whether the accept loop runs. -/
  accepting : Bool := false
  /-- Whether the accept loop and the connections have been told to stop. -/
  stopSignal : Bool := false
  /-- Whether the connections have been told to end at once. -/
  forceSignal : Bool := false
  connections : List Server.Connection := []
  /-- The number of connections accepted so far, which is the name of the next one. -/
  accepted : Nat := 0
  /-- The number of requests taken up so far, which is the name of the next one. -/
  entered : Nat := 0
  /-- The requests with a complete response. -/
  answered : List Nat := []
  /-- The requests that their peer left before they were answered. -/
  forsaken : List Nat := []
  /-- The requests that were cut off before they were answered. -/
  cut : List Nat := []
  drain : Option Server.Drain := none
  /-- How the drain ended. -/
  outcome : Option Server.Outcome := none
  signal : Server.Signal := .absent
  /-- The call that waits for the drain. -/
  caller : Option Nat := none
deriving DecidableEq

namespace Server

def bound (secured : Bool) : Server := { secured }

/-! ## Calls -/

/-- A call to start: it succeeds once, and not after a shutdown.  The state is taken out to be looked
at, and put back where nothing is to change. -/
def start (s : Server) : Server × Except Fault Unit :=
  let held := s.state
  let s := { s with state := .closed }
  match held with
  | .unstarted => ({ s with state := .serving, accepting := true, signal := .pending }, .ok ())
  | other => ({ s with state := other }, .error (.invalidState other))

/-- A call to shut down.  Before the start the socket is closed at once; the first call on a serving
server waits for the drain, any later one changes nothing.  Here too the state is taken out first. -/
def shutdown (s : Server) (call : Nat) : Server × Option Outcome :=
  let held := s.state
  let s := { s with state := .shuttingDown }
  match held with
  | .serving => ({ s with drain := some .called, caller := some call }, none)
  | .unstarted => ({ s with state := .closed, listening := false }, some .notStarted)
  | other => ({ s with state := other }, some .alreadyClosed)

variable {s : Server}

theorem start_of_unstarted (h : s.state = .unstarted) :
    s.start = ({ s with state := .serving, accepting := true, signal := .pending }, .ok ()) := by
  simp [start, h]

/-- A call to start that comes too late puts the state back. -/
theorem start_of_called (h : s.state ≠ .unstarted) :
    s.start = (s, .error (.invalidState s.state)) := by
  cases s with | mk _ state =>
  cases state
  case unstarted => exact absurd rfl h
  all_goals rfl

theorem shutdown_of_unstarted (call : Nat) (h : s.state = .unstarted) :
    s.shutdown call = ({ s with state := .closed, listening := false }, some .notStarted) := by
  simp [shutdown, h]

theorem shutdown_of_serving (call : Nat) (h : s.state = .serving) :
    s.shutdown call =
      ({ s with state := .shuttingDown, drain := some .called, caller := some call }, none) := by
  simp [shutdown, h]

/-- A call to shut down that comes too late puts the state back. -/
theorem shutdown_of_called (call : Nat) (h : s.state = .shuttingDown ∨ s.state = .closed) :
    s.shutdown call = (s, some .alreadyClosed) := by
  cases s with | mk _ state =>
  cases state
  case unstarted | serving => simp at h
  all_goals rfl

/-- The end of a drain: the server is closed, and the call that waits for it learns the outcome. -/
def close (s : Server) (o : Outcome) : Server × List Report :=
  ({ s with state := .closed, drain := none, outcome := some o, caller := none },
    s.caller.toList.map (.shutdown · o))

/-- What a turn of one of its connections makes of a server. -/
def turn (s : Server) (c : Connection) (t : Turn) : Server :=
  { s with
    connections := s.connections.erase c ++ (c.next? t).toList
    entered := s.entered + t.taken.length
    answered := s.answered ++ t.answered
    forsaken := s.forsaken ++ t.forsaken
    cut := s.cut ++ t.cut }

section

variable (s : Server) (o : Outcome) (c : Connection) (t : Turn)

@[simp] theorem state_close : (s.close o).1.state = .closed := rfl
@[simp] theorem drain_close : (s.close o).1.drain = none := rfl
@[simp] theorem outcome_close : (s.close o).1.outcome = some o := rfl
@[simp] theorem caller_close : (s.close o).1.caller = none := rfl
@[simp] theorem signal_close : (s.close o).1.signal = s.signal := rfl

@[simp] theorem state_turn : (s.turn c t).state = s.state := rfl
@[simp] theorem drain_turn : (s.turn c t).drain = s.drain := rfl
@[simp] theorem outcome_turn : (s.turn c t).outcome = s.outcome := rfl
@[simp] theorem caller_turn : (s.turn c t).caller = s.caller := rfl
@[simp] theorem signal_turn : (s.turn c t).signal = s.signal := rfl

end

/-! ## Steps -/

/-- What an event makes of a server, and what it reports; none if it cannot happen. -/
def step? (s : Server) : Event → Option (Server × List Report)
  | .start =>
    let (s, result) := s.start
    some (s, [.start result])
  | .shutdown call =>
    let (s, outcome) := s.shutdown call
    some (s, outcome.toList.map (.shutdown call))
  | .abandon call =>
    if s.caller = some call then some ({ s with caller := none }, []) else none
  | .accept =>
    if s.accepting then
      let c : Connection := { id := s.accepted, session := if s.secured then none else some {} }
      some ({ s with connections := s.connections ++ [c], accepted := s.accepted + 1 }, [])
    else none
  | .acceptFault ofConnection cause =>
    if ! s.accepting then none
    else if ofConnection then some (s, [])
    else
      let fault := Fault.acceptLoop cause
      some ({ s with listening := false, accepting := false, signal := .resolved fault }, [])
  | .loopStop =>
    if s.accepting ∧ s.stopSignal then
      some ({ s with listening := false, accepting := false, signal := .resolved none }, [])
    else none
  | .on id e => do
    let c ← s.connections.find? (·.id = id)
    let t ← c.turn? s.stopSignal s.forceSignal s.entered e
    return (s.turn c t, [])
  | .drainStart =>
    if s.drain = some .called then
      some ({ s with stopSignal := true, drain := some .stopping }, [])
    else none
  | .joined =>
    if s.drain = some .stopping ∧ ! s.accepting then some ({ s with drain := some .waiting }, [])
    else none
  | .deadline =>
    if s.drain = some .waiting then
      if s.connections = [] then some (s.close .drained)
      else some ({ s with forceSignal := true, drain := some .forcing }, [])
    else none
  | .drainEnd =>
    if s.connections = [] then
      match s.drain with
      | some .waiting => some (s.close .drained)
      | some .forcing => some (s.close .timedOut)
      | _ => none
    else none

/-- What a list of events makes of a server; none if one of them cannot happen. -/
def run? (s : Server) : List Event → Option (Server × List Report)
  | [] => some (s, [])
  | e :: es => do
    let (s, reports) ← s.step? e
    let (s, more) ← s.run? es
    return (s, reports ++ more)

/-- Whether the tasks of a server have finished: its accept loop does not run. -/
def areTasksDone (s : Server) : Bool := ! s.accepting

/-! ## Left to itself -/

/-- An event, if it can happen. -/
def attempt (s : Server) (e : Event) : Server × List Report := (s.step? e).getD (s, [])

/-- What a server does by itself when a shutdown has been called for, in order. -/
def ownEvents (s : Server) : List Event :=
  [.drainStart, .loopStop] ++ s.connections.map (.on ·.id .notice) ++
    s.connections.map (.on ·.id .finish) ++ [.joined, .drainEnd]

/-- Lets a server go as far as it gets without its clients and before the deadline. -/
def settle (s : Server) : Server × List Report :=
  s.ownEvents.foldl (fun (s, reports) e =>
    let (s, more) := s.attempt e
    (s, reports ++ more)) (s, [])

/-- **A shutdown of a server without connections closes it**, and the call learns that it has
drained. -/
theorem settle_shutdown_of_unused {s : Server} (call : Nat) (hstate : s.state = .serving)
    (haccept : s.accepting) (hconnections : s.connections = []) :
    let (t, reports) := (s.shutdown call).1.settle
    t.state = .closed ∧ ! t.listening ∧ reports = [.shutdown call .drained] := by
  simp [shutdown, hstate, settle, ownEvents, hconnections, attempt, step?, haccept, close]

end Server

end DataRepository

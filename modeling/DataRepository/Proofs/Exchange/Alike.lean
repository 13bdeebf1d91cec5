import DataRepository.Proofs.Exchange.Independence

/-! # Requests that are served alike

Four parts of a request count: the table goes by its path and its method, the gate by
its credential, and a command that takes a document by its body. What else a request
brings, its query, its origin and all other header fields, is handed on and read by
nothing. So two histories that agree in the four parts get the same responses and leave
the same store (`replay_of_alike`). -/
namespace DataRepository

open Http (Request Response)
open Access (Gate)
open Resource (Command Operation)

/-! ## What is read of a request -/

/-- Two requests with the same method, path, credential and body. -/
structure Http.Request.Alike (r r' : Request) : Prop where
  method : r.method = r'.method
  path : r.target.path = r'.target.path
  credential : r.credential = r'.credential
  body : r.body = r'.body

/-- Two requests for the same thing: with the same method, path and body. -/
structure Http.Request.SameCall (r r' : Request) : Prop where
  method : r.method = r'.method
  path : r.target.path = r'.target.path
  body : r.body = r'.body

theorem Http.Request.Alike.sameCall {r r' : Request} (h : r.Alike r') : r.SameCall r' :=
  ⟨h.method, h.path, h.body⟩

variable {g : Gate} {now now' : UInt64} {r r' : Request}

theorem Access.Gate.refusal?_congr (h : r.credential = r'.credential) (g : Gate) (now : UInt64) :
    g.refusal? now r = g.refusal? now r' := by
  simp only [Gate.refusal?, g.check_congr h now]

theorem Resource.Command.ofRequest_congr (h : r.SameCall r') (op : Operation) (location : Http.Location) :
    Command.ofRequest op r location = Command.ofRequest op r' location := by
  cases op <;> simp only [Command.ofRequest, h.path, h.body]

namespace Exchange

theorem sameCall_seen (h : r.SameCall r') : (seen r).SameCall (seen r') := by
  refine ⟨h.method, ?_, h.body⟩
  rw [path_seen, path_seen, h.path]

theorem judgement_of_refusal (h : g.refusal? now r = g.refusal? now' r') :
    Routing.judgement [g.guard now] (seen r) = Routing.judgement [g.guard now'] (seen r') := by
  have hseen : g.refusal? now (seen r) = g.refusal? now r := Gate.refusal?_congr rfl g now
  have hseen' : g.refusal? now' (seen r') = g.refusal? now' r' := Gate.refusal?_congr rfl g now'
  simp only [Routing.judgement, Gate.guard, hseen, hseen', h]

/-! ## The way of a request -/

/-- Requests for the same thing of which the gate thinks the same get equally far, and ask for the
same thing there. -/
theorem passage_of_sameCall (h : r.SameCall r') (hgate : g.refusal? now r = g.refusal? now' r') :
    (passage g now r).reach = (passage g now' r').reach ∧
      (passage g now r).request.SameCall (passage g now' r').request := by
  have hjudgement : Routing.judgement [g.guard now] (seen r) =
      Routing.judgement [g.guard now'] (seen r') := judgement_of_refusal hgate
  unfold passage Routing.Table.pass
  rw [h.path]
  cases Resource.table.row? r'.target.path with
  | none => exact ⟨rfl, h⟩
  | some row =>
    refine ⟨?_, sameCall_seen h⟩
    simp only [seen, h.method] at hjudgement ⊢
    simp only [hjudgement]

theorem plan_of_sameCall (h : r.SameCall r') (hgate : g.refusal? now r = g.refusal? now' r') :
    plan g now r = plan g now' r' := by
  obtain ⟨hreach, hrequest⟩ : (passage g now r).reach = (passage g now' r').reach ∧ _ :=
    passage_of_sameCall h hgate
  have hsettled : (passage g now r).settled? missing = (passage g now' r').settled? missing := by
    simp only [Routing.Passage.settled?, hreach]
  unfold plan planFor
  rw [hreach, hsettled, Http.Target.location_congr h.path]
  cases (passage g now' r').reach with
  | route route => simp only [Command.ofRequest_congr hrequest]
  | nowhere => rfl
  | stopped _ => rfl
  | noRoute _ => rfl

/-- **Of the header of a request and of the time only the verdict of the gate counts.** -/
theorem serve_of_sameCall (h : r.SameCall r') (hgate : g.refusal? now r = g.refusal? now' r')
    (s : Store) : serve g now r s = serve g now' r' s := by
  simp only [serve, plan_of_sameCall h hgate, h.method]

theorem serve_of_alike (h : r.Alike r') (s : Store) : serve g now r s = serve g now r' s :=
  serve_of_sameCall h.sameCall (Gate.refusal?_congr h.credential g now) s

/-! ## Histories -/

/-- **Only the method, the path, the credential and the body of a request count**: histories that
agree in them request by request, at the same times, get the same responses and leave the same store,
whatever the queries, the origins and the other header fields are. -/
theorem replay_of_alike (g : Gate) {rs rs' : List (UInt64 × Request)}
    (h : List.Forall₂ (fun a b => a.1 = b.1 ∧ a.2.Alike b.2) rs rs') (s : Store) :
    replay g rs s = replay g rs' s := by
  induction h generalizing s with
  | nil => rfl
  | @cons a b rs rs' hfirst hrest ih =>
    obtain ⟨now, r⟩ := a
    obtain ⟨now', r'⟩ := b
    obtain ⟨htime, halike⟩ := hfirst
    obtain rfl : now = now' := htime
    have hserve : serve g now r s = serve g now r' s := serve_of_alike halike s
    simp only [replay, hserve, ih]

/-- A creation and a query under a token, written plainly and with a query string, an origin, a content
type and a second authorization field. -/
theorem replay_of_alike_decorated :
    let g : Gate := ⟨.dataRepository, ⟨"", true, some [1]⟩⟩
    let target : Http.Target := { path := "/nudr-dr/v2/policy-data/ues/imsi-1/am-data" }
    let distant : Http.Target :=
      { origin := "http://udr", path := "/nudr-dr/v2/policy-data/ues/imsi-1/am-data", query := some "a=1" }
    let token := Access.issue [1] ⟨"nrf", "amf", .string "udr", "nudr-dr", 100⟩
    let bearer := Text.bytes ("Bearer " ++ token)
    let plain (m : Http.Method) (body : Bytes) : UInt64 × Request :=
      (7, { method := m, target, headers := [("authorization", bearer)], body })
    let decorated (m : Http.Method) (body : Bytes) : UInt64 × Request :=
      (7, { method := m, target := distant, body,
            headers :=
              [("content-type", Text.bytes "application/json-patch+json"),
                ("Authorization", bearer), ("Authorization", Text.bytes "Bearer d.e.f")] })
    List.Forall₂ (fun a b => a.1 = b.1 ∧ a.2.Alike b.2)
        [plain .put [49], plain .get []] [decorated .put [49], decorated .get []] ∧
      replay g [plain .put [49], plain .get []] .empty =
        replay g [decorated .put [49], decorated .get []] .empty := by
  intro g target distant token bearer plain decorated
  have halike : ∀ m body, (plain m body).2.Alike (decorated m body).2 := by
    intro m body
    have hcredential : (plain m body).2.credential = (decorated m body).2.credential := by
      have hheader : (plain m body).2.header? "authorization" =
          (decorated m body).2.header? "authorization" := by
        simp only [plain, decorated, Request.header?]
        have hnames : "authorization".toList.map Char.toLower = "authorization".toList ∧
            "Authorization".toList.map Char.toLower = "authorization".toList ∧
            "content-type".toList.map Char.toLower ≠ "authorization".toList := by decide
        simp only [List.find?_cons, hnames, decide_true, decide_false, Option.map_some]
      simp only [Request.credential, hheader]
    exact ⟨rfl, rfl, hcredential, rfl⟩
  have hall : List.Forall₂ (fun a b => a.1 = b.1 ∧ a.2.Alike b.2)
      [plain .put [49], plain .get []] [decorated .put [49], decorated .get []] :=
    .cons ⟨rfl, halike _ _⟩ (.cons ⟨rfl, halike _ _⟩ .nil)
  exact ⟨hall, replay_of_alike g hall .empty⟩

end Exchange

end DataRepository

import DataRepository.Proofs.Exchange.Refusal
import DataRepository.Proofs.Resource.Keys
import DataRepository.Proofs.Steps

/-! # Commands that requests come to

A command is executed for a request that the gate lets through, on the path of a
resource, with a method that the resource defines; its document is the body of the
request. `exists_asked` reads this off a plan, `plan_of_matches` makes the plan. -/
namespace DataRepository

def Resource.Command.operation : Resource.Command → Resource.Operation
  | query _ => .query
  | replace _ _ _ => .replace
  | modify _ _ => .modify
  | remove _ => .remove

namespace Exchange

open Http (Request Response)
open Access (Gate)
open Resource (Command Operation)

variable {g : Gate} {now : UInt64} {r : Request} {c : Command}

def seen (r : Request) : Request :=
  { r with target := Resource.table.localTarget r.target }

theorem body_seen (r : Request) : (seen r).body = r.body := rfl

theorem path_seen (r : Request) :
    (seen r).target.path = Routing.unmounted Resource.servicePath r.target.path := by
  rw [← Resource.mount_table]
  rfl

/-- A command comes from a request that has passed the gate on the path of a
resource, with a method that asks for it. -/
structure Asked (g : Gate) (now : UInt64) (r : Request) (op : Operation) (c : Command) : Prop where
  passed : g.refuses now r = false
  exposed : Resource.Exposed r.target.path
  offered : Resource.Offers op r.target.path
  method : op.method = r.method ∨ (r.method = .head ∧ op = .query)
  command : Command.ofRequest op (seen r) r.target.location = .ok c

theorem exists_asked (h : plan g now r = .execute c) : ∃ op, Asked g now r op c := by
  have hpassed : g.refuses now r = false := by
    cases hr : g.refuses now r with
    | false => rfl
    | true =>
      unfold plan planFor at h
      rcases reach_of_refused hr with ⟨-, hreach⟩ | ⟨-, _, hreach, -⟩ <;> rw [hreach] at h <;> cases h
  unfold plan planFor passage Routing.Table.pass at h
  cases hrow : Resource.table.row? r.target.path with
  | none => rw [hrow] at h; cases h
  | some row =>
    obtain ⟨t, ht, hmatch, rfl⟩ := Resource.row?_eq_some_iff.mp hrow
    rw [hrow] at h
    dsimp only at h
    split at h
    · rename_i route hreach
      split at hreach <;> cases hreach
      rename_i hroute
      split at h
      · rename_i c' hc
        cases h
        refine ⟨route.handler, hpassed, ⟨t, ht, hmatch⟩, Resource.offers_of_route? hmatch hroute, ?_, hc⟩
        rcases Resource.method_of_route? hroute with hm | hm
        · exact .inl hm
        · exact .inr hm
      · cases h
    · cases h

theorem Asked.operation_eq {op : Operation} (h : Asked g now r op c) : c.operation = op := by
  have hc := h.command
  cases op <;> simp only [Command.ofRequest] at hc
  · cases hc
    rfl
  · obtain ⟨_, -, hc⟩ := exists_of_map_eq_ok hc
    cases hc
    rfl
  · obtain ⟨_, -, hc⟩ := exists_of_map_eq_ok hc
    cases hc
    rfl
  · cases hc
    rfl

theorem plan_of_matches {t : String} {route : Routing.Route Operation} (ht : t ∈ Resource.patterns)
    (hmatch : Resource.Matches t r.target.path) (hpassed : g.refuses now r = false)
    (hroute : (Resource.rowOf t).2.route? r.method = some route) :
    plan g now r =
      match Command.ofRequest route.handler (seen r) r.target.location with
      | .ok c => .execute c
      | .error failure => .answer failure.response := by
  have hrow := Resource.row?_eq_some_iff.mpr ⟨t, ht, hmatch, rfl⟩
  unfold plan planFor passage Routing.Table.pass
  simp only [hrow, hroute, judgement_of_passed hpassed]
  rfl

theorem isRouted_of_matches {t : String} {route : Routing.Route Operation} (ht : t ∈ Resource.patterns)
    (hmatch : Resource.Matches t r.target.path) (hpassed : g.refuses now r = false)
    (hroute : (Resource.rowOf t).2.route? r.method = some route) :
    (passage g now r).isRouted = true := by
  have hrow := Resource.row?_eq_some_iff.mpr ⟨t, ht, hmatch, rfl⟩
  unfold passage Routing.Table.pass
  simp only [hrow, hroute, judgement_of_passed hpassed]
  rfl

/-! ## Requests that come to no command -/

/-- The gate lets the request through to a resource that does not define its method. -/
structure Undefined (g : Gate) (now : UInt64) (r : Request) : Prop where
  passed : g.refuses now r = false
  exposed : Resource.Exposed r.target.path
  method : ∀ op, Resource.Offers op r.target.path →
    op.method ≠ r.method ∧ ¬ (r.method = .head ∧ op = .query)

theorem route?_eq_none_iff {t path : String} {m : Http.Method} (ht : t ∈ Resource.patterns)
    (hmatch : Resource.Matches t path) : (Resource.rowOf t).2.route? m = none ↔
      ∀ op, Resource.Offers op path → op.method ≠ m ∧ ¬ (m = .head ∧ op = .query) := by
  constructor
  · intro hroute op hop
    obtain ⟨t', ht', hmatch', route, hroute', -⟩ := hop.route?
    obtain rfl := Resource.eq_of_matches ht ht' hmatch hmatch'
    constructor
    · rintro rfl
      rw [hroute] at hroute'
      cases hroute'
    · rintro ⟨rfl, rfl⟩
      have hget : (Resource.rowOf t).2.given? .get = none := (Option.or_eq_none_iff.mp hroute).2
      have hgot : (Resource.rowOf t).2.given? .get = some route := hroute'
      rw [hget] at hgot
      cases hgot
  · intro hnone
    refine Option.eq_none_iff_forall_ne_some.mpr fun route hroute => ?_
    obtain ⟨hmethod, hhead⟩ := hnone route.handler (Resource.offers_of_route? hmatch hroute)
    exact (Resource.method_of_route? hroute).elim hmethod hhead

theorem plan_of_undefined (h : Undefined g now r) :
    ∃ allow, plan g now r = .answer { status := 405, allow } := by
  obtain ⟨hpassed, ⟨t, ht, hmatch⟩, hmethod⟩ := h
  have hroute := (route?_eq_none_iff ht hmatch).mpr hmethod
  have hrow := Resource.row?_eq_some_iff.mpr ⟨t, ht, hmatch, rfl⟩
  unfold plan planFor passage Routing.Table.pass
  simp only [hrow, hroute, judgement_of_passed hpassed]
  exact ⟨_, rfl⟩

/-- A request that comes to no command is answered by a failure, or told which methods there are. -/
theorem answer_cases {a : Response} (h : plan g now r = .answer a) :
    Undefined g now r ∨
      ∃ (f : Failure) (allow : List Http.Method), a = { f.response with allow } := by
  unfold plan planFor passage Routing.Table.pass at h
  cases hrow : Resource.table.row? r.target.path with
  | none =>
    rw [hrow] at h
    cases h
    exact .inr ⟨.notFound _, [], rfl⟩
  | some row =>
    obtain ⟨t, ht, hmatch, rfl⟩ := Resource.row?_eq_some_iff.mp hrow
    cases hrefused : g.refuses now r with
    | true =>
      obtain ⟨why, hwhy⟩ := judgement_of_refused hrefused
      simp only [hrow, hwhy] at h
      cases hroute : (Resource.rowOf t).2.route? r.method <;> rw [hroute] at h <;> cases h
      · exact .inr ⟨.unauthorized why.text, _, rfl⟩
      · exact .inr ⟨.unauthorized why.text, [], rfl⟩
    | false =>
      cases hroute : (Resource.rowOf t).2.route? r.method with
      | none => exact .inl ⟨hrefused, ⟨t, ht, hmatch⟩, (route?_eq_none_iff ht hmatch).mp hroute⟩
      | some route =>
        simp only [hrow, hroute, judgement_of_passed hrefused] at h
        split at h
        · cases h
        · rename_i failure _
          cases h
          exact .inr ⟨failure, [], rfl⟩

theorem plan_of_put {t : String} {route : Routing.Route Operation} {doc : Json}
    (ht : t ∈ Resource.patterns) (hmatch : Resource.Matches t r.target.path)
    (hpassed : g.refuses now r = false) (hroute : (Resource.rowOf t).2.route? r.method = some route)
    (hop : route.handler = .replace) (hbody : Resource.readBody r.body = .ok doc) :
    plan g now r = .execute (.replace (seen r).target.path r.target.location doc) := by
  rw [plan_of_matches ht hmatch hpassed hroute, hop]
  simp only [Command.ofRequest, body_seen, hbody, Except.map]

theorem plan_of_patch {t : String} {route : Routing.Route Operation} {patch : Json}
    (ht : t ∈ Resource.patterns) (hmatch : Resource.Matches t r.target.path)
    (hpassed : g.refuses now r = false) (hroute : (Resource.rowOf t).2.route? r.method = some route)
    (hop : route.handler = .modify) (hbody : Resource.readBody r.body = .ok patch) :
    plan g now r = .execute (.modify (seen r).target.path patch) := by
  rw [plan_of_matches ht hmatch hpassed hroute, hop]
  simp only [Command.ofRequest, body_seen, hbody, Except.map]

/-- A document that is to be put is the body of its request, and its location is that of the request. -/
theorem put_of_asked {op : Operation} {key : String} {location : Http.Location} {doc : Json}
    (h : Asked g now r op (.replace key location doc)) :
    location = r.target.location ∧ Resource.readBody r.body = .ok doc := by
  have hc := h.command
  cases op <;> simp only [Command.ofRequest, body_seen] at hc
  · cases hc
  · obtain ⟨doc', hbody, hc⟩ := exists_of_map_eq_ok hc
    cases hc
    exact ⟨rfl, hbody⟩
  · obtain ⟨_, -, hc⟩ := exists_of_map_eq_ok hc
    cases hc
  · cases hc

/-- A patch is the body of its request. -/
theorem patch_of_asked {op : Operation} {key : String} {patch : Json}
    (h : Asked g now r op (.modify key patch)) : Resource.readBody r.body = .ok patch := by
  have hc := h.command
  cases op <;> simp only [Command.ofRequest, body_seen] at hc
  · cases hc
  · obtain ⟨_, -, hc⟩ := exists_of_map_eq_ok hc
    cases hc
  · obtain ⟨patch', hbody, hc⟩ := exists_of_map_eq_ok hc
    cases hc
    exact hbody
  · cases hc

theorem query_of_asked {op : Operation} (h : Asked g now r op c)
    (hmethod : r.method = .get ∨ r.method = .head) : ∃ key, c = .query key := by
  have hop : op = .query := by
    rcases h.method with hm | ⟨-, hm⟩
    · cases op <;> rcases hmethod with he | he <;> rw [he] at hm <;> first | rfl | cases hm
    · exact hm
  obtain rfl := hop
  have hc := h.command
  cases hc
  exact ⟨_, rfl⟩

end Exchange

end DataRepository

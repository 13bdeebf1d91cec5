import DataRepository.Proofs.Exchange.Independence

/-! # Where documents can come into being

Only a put makes a document where there was none. Every resource but the session
management policy defines one, so a single request makes its document; the policy has
a query and a patch and no put, and no history of requests leaves a document there. -/
namespace DataRepository.Resource

variable {path : String}

/-- The resources that can be put are those that can be queried or patched, but for the session
policy. -/
theorem offers_replace_iff (h : Offers .query path ∨ Offers .modify path) :
    Offers .replace path ↔ ¬ Matches sessionPolicy path := by
  have hsibling : ∀ e ∈ endpoints, e.handler = .query ∨ e.handler = .modify →
      e.pattern = sessionPolicy ∨ ∃ e' ∈ endpoints, e'.handler = .replace ∧ e'.pattern = e.pattern := by
    decide
  have hpolicy : ∀ e ∈ endpoints, e.handler = .replace → e.pattern ≠ sessionPolicy := by decide
  constructor
  · rintro ⟨e, he, hop, hmatch⟩ hsession
    exact hpolicy e he hop
      (eq_of_matches (pattern_mem_patterns e he) (by decide) hmatch hsession)
  · intro hsession
    obtain ⟨e, he, hop, hmatch⟩ :
        ∃ e ∈ endpoints, (e.handler = .query ∨ e.handler = .modify) ∧ Matches e.pattern path := by
      rcases h with ⟨e, he, hop, hmatch⟩ | ⟨e, he, hop, hmatch⟩
      · exact ⟨e, he, .inl hop, hmatch⟩
      · exact ⟨e, he, .inr hop, hmatch⟩
    obtain hpattern | ⟨e', he', hop', hpattern⟩ := hsibling e he hop
    · exact absurd (hpattern ▸ hmatch) hsession
    · exact ⟨e', he', hop', hpattern ▸ hmatch⟩

theorem Offers.query_of_modify (h : Offers .modify path) : Offers .query path := by
  have hquery : ∀ e ∈ endpoints, e.handler = .modify →
      ∃ e' ∈ endpoints, e'.handler = .query ∧ e'.pattern = e.pattern := by decide
  obtain ⟨e, he, hop, hmatch⟩ := h
  obtain ⟨e', he', hop', hpattern⟩ := hquery e he hop
  exact ⟨e', he', hop', hpattern ▸ hmatch⟩

end DataRepository.Resource

namespace DataRepository.Exchange

open Http (Request Response)
open Access (Gate)
open Resource (Command Operation keyOf)

variable {g : Gate} {now : UInt64} {path : String} {r : Request} {s : Store} {c : Command}
  {past : List (Request × Response)}

theorem refuses_of_open (h : g.policy.tokenRequired = false) : g.refuses now r = false := by
  rw [Gate.refuses, Gate.check_of_not_required h]

/-! ## Nothing comes of nothing -/

/-- Only a put makes a document where there was none. -/
theorem get?_run_of_none (h : s.get? c.key = none)
    (hput : ∀ key location doc, c ≠ .replace key location doc) :
    (c.run s).2.get? c.key = none := by
  cases c with
  | query key => exact h
  | replace key location doc => exact absurd rfl (hput key location doc)
  | modify key patch =>
    simp only [Command.key] at h
    simp only [Command.run, Command.key, Store.patch, h]
  | remove key => exact s.get?_erase_self key

theorem offered_of_replace {op : Operation} {key : String} {location : Http.Location} {doc : Json}
    (h : Asked g now r op (.replace key location doc)) : Resource.Offers .replace r.target.path := by
  obtain rfl : Operation.replace = op := h.operation_eq
  exact h.offered

theorem documentAt_serve_of_none (hput : ¬ Resource.Offers .replace path)
    (h : documentAt s path = none) : documentAt (serve g now r s).2 path = none := by
  by_cases hr : r.target.path = path
  · subst hr
    cases hplan : plan g now r with
    | answer a => simpa only [serve, hplan, Plan.run] using h
    | execute c =>
      obtain ⟨op, hasked⟩ := exists_asked hplan
      rw [hasked.documentAt_eq] at h
      rw [hasked.documentAt_eq]
      simp only [serve, hplan, Plan.run]
      refine get?_run_of_none h fun key location doc hc => hput ?_
      subst hc
      exact offered_of_replace hasked
  · rw [documentAt_serve_of_ne hr, h]

/-- No history leaves a document at a path where nothing can be put. -/
theorem History.documentAt_eq_none (h : History g past s) (hput : ¬ Resource.Offers .replace path) :
    documentAt s path = none := by
  induction h with
  | start => exact documentAt_empty path
  | next _ late now r ih =>
    cases hlate : timesOut late g now r with
    | true => rwa [attend_of_timesOut hlate]
    | false =>
      rw [attend_of_not_timesOut hlate]
      exact documentAt_serve_of_none hput ih

/-! ## Queries -/

theorem status_query (h : Asks g now .query path r) (s : Store) :
    (serve g now r s).1.status = if (documentAt s path).isSome then 200 else 404 := by
  rw [answer_query h, documentAt, if_pos h.offered.exposed]
  cases s.get? (keyOf path) <;> rfl

/-- The request that puts the document `1`. -/
def putOne (target : Http.Target) : Request := { method := .put, target, body := [49] }

theorem carries_putOne (target : Http.Target) :
    Carries (putOne target) (.number (.whole (Whole.ofWord 1))) := by
  have hparse : Json.parse [49] = .ok (.number (.whole (Whole.ofWord 1))) := by decide +kernel
  exact ⟨Nat.le_refl 1, by simp [putOne], hparse⟩

theorem documentAt_putOne (hopen : g.policy.tokenRequired = false)
    {t : Http.Target} (hput : Resource.Offers .replace t.path) (now : UInt64) (s : Store) :
    (documentAt (serve g now (putOne t) s).2 t.path).isSome := by
  have hasks : Asks g now .replace t.path (putOne t) := ⟨refuses_of_open hopen, rfl, rfl, hput⟩
  rw [serve_replace hasks (carries_putOne t), documentAt, if_pos hput.exposed]
  simp only [Command.run, Store.put, Store.get?_insert_self, Option.isSome_some]

/-- **What can be queried or patched can come into being, but for the session policy**: for every
other path there are requests after which a query for it is answered with a document, and for a path of
the session policy there is no history after which a query finds one. -/
theorem found_unless_sessionPolicy (g : Gate) (hopen : g.policy.tokenRequired = false) (path : String)
    (hpath : Resource.Offers .query path ∨ Resource.Offers .modify path) :
    (¬ Resource.Matches Resource.sessionPolicy path → ∃ rs : List Request, ∀ now now' q,
      q.method = .get → q.target.path = path →
        (serve g now' q (serveAll g now rs .empty).2).1.status = 200) ∧
    (Resource.Matches Resource.sessionPolicy path → ∀ past s, History g past s → ∀ now q,
      q.method = .get → q.target.path = path → (serve g now q s).1.status = 404) := by
  have hquery : Resource.Offers .query path := hpath.elim id Resource.Offers.query_of_modify
  constructor
  · intro hsession
    have hput := (Resource.offers_replace_iff hpath).mpr hsession
    -- There are no requests for a path that no target has.
    by_cases ht : ∃ t : Http.Target, t.path = path
    · obtain ⟨t, rfl⟩ := ht
      refine ⟨[putOne t], fun now now' q hmethod htarget => ?_⟩
      rw [status_query ⟨refuses_of_open hopen, hmethod, htarget, hquery⟩]
      simp only [serveAll, documentAt_putOne hopen hput, if_true]
    · exact ⟨[], fun _ _ q _ htarget => absurd ⟨q.target, htarget⟩ ht⟩
  · intro hsession past s hpast now q hmethod htarget
    have hput : ¬ Resource.Offers .replace path :=
      fun h => (Resource.offers_replace_iff hpath).mp h hsession
    rw [status_query ⟨refuses_of_open hopen, hmethod, htarget, hquery⟩,
      hpast.documentAt_eq_none hput]
    rfl

/-- A path whose wildcards stand for the words of other resources. -/
theorem found_contextData :
    let g : Gate := ⟨.dataRepository, ⟨"", false, none⟩⟩
    let path := "/nudr-dr/v2/subscription-data/ues/context-data/provisioned-data/am-data"
    g.policy.tokenRequired = false ∧ Resource.Offers .query path ∧
      ¬ Resource.Matches Resource.sessionPolicy path ∧
      ∃ rs : List Request, ∀ now now' q, q.method = .get → q.target.path = path →
        (serve g now' q (serveAll g now rs .empty).2).1.status = 200 := by
  intro g path
  have hquery : Resource.Offers .query path :=
    ⟨Resource.endpoint "QueryAmData" .query Resource.accessData, by decide, rfl, by decide +kernel⟩
  have hsession : ¬ Resource.Matches Resource.sessionPolicy path := by decide +kernel
  exact ⟨rfl, hquery, hsession, (found_unless_sessionPolicy g rfl path (.inl hquery)).1 hsession⟩

/-- The session policy of a consumer can be queried and patched, and no history of requests leaves
one to be found. -/
theorem sessionPolicy_never_found :
    let g : Gate := ⟨.dataRepository, ⟨"", false, none⟩⟩
    let path := "/nudr-dr/v2/policy-data/ues/imsi-1/sm-data"
    Resource.Offers .query path ∧ Resource.Offers .modify path ∧
      ¬ ∃ past s, History g past s ∧ ∃ now q, q.method = .get ∧ q.target.path = path ∧
        (serve g now q s).1.status = 200 := by
  intro g path
  have hsession : Resource.Matches Resource.sessionPolicy path := by decide +kernel
  have hquery : Resource.Offers .query path :=
    ⟨Resource.endpoint "ReadSessionManagementPolicyData" .query Resource.sessionPolicy, by decide, rfl,
      hsession⟩
  have hmodify : Resource.Offers .modify path :=
    ⟨Resource.endpoint "UpdateSessionManagementPolicyData" .modify Resource.sessionPolicy, by decide,
      rfl, hsession⟩
  have hput : ¬ Resource.Offers .replace path :=
    fun h => (Resource.offers_replace_iff (.inl hquery)).mp h hsession
  refine ⟨hquery, hmodify, ?_⟩
  rintro ⟨past, s, hpast, now, q, hmethod, htarget, hstatus⟩
  rw [status_query ⟨refuses_of_open rfl, hmethod, htarget, hquery⟩,
    hpast.documentAt_eq_none hput] at hstatus
  cases hstatus

end DataRepository.Exchange

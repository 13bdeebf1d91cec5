import DataRepository.Proofs.Exchange.Coherence
import DataRepository.Proofs.Problem

/-! # Answers that explain an error

Every failure of this service is answered with a problem of its status. Two errors are
not failures of its own and carry no problem: a method that the resource does not
define, and that the time of a request is up. -/
namespace DataRepository.Exchange

open Http (Request Response)
open Access (Gate)
open Resource (Command)

variable {g : Gate} {now : UInt64} {r : Request} {s : Store} {c : Command}

/-- The body of the response is a problem with the status of the response. -/
structure Explained (a : Response) : Prop where
  contentType : a.contentType = some Failure.problemType
  body : ∃ p, Problem.parse (Text.bytes a.body) = .ok p ∧ p.status = a.status

theorem explained_failure (f : Failure) (allow : List Http.Method) :
    Explained { f.response with allow } :=
  ⟨rfl, f.problem, Problem.parse_text f.problem, f.status_problem⟩

theorem serve_of_answer {a : Response} (h : plan g now r = .answer a) (hmethod : r.method ≠ .head) :
    serve g now r s = (a, s) := by
  simp only [serve, h, Plan.run, Routing.sent, if_neg hmethod]

theorem explained_run (h : 400 ≤ (c.run s).1.status) : Explained (c.run s).1 := by
  obtain hsucceeded | ⟨f, hrun⟩ := run_cases c s
  · have hstatus : (c.run s).1.status < 300 := (of_decide_eq_true hsucceeded).2
    exact absurd (UInt16.lt_of_lt_of_le hstatus (by decide)) (UInt16.not_lt.mpr h)
  · rw [hrun]
    exact explained_failure f []

theorem explained_serve_iff (hmethod : r.method ≠ .head) (hstatus : 400 ≤ (serve g now r s).1.status) :
    Explained (serve g now r s).1 ↔ ¬ Undefined g now r := by
  have hsent : ∀ a, Routing.sent r.method a = a := fun a => if_neg hmethod
  simp only [serve, hsent] at hstatus ⊢
  cases hplan : plan g now r with
  | answer a =>
    rcases answer_cases hplan with hundefined | ⟨f, allow, rfl⟩
    · obtain ⟨allow, hallow⟩ := plan_of_undefined hundefined
      rw [hplan] at hallow
      cases hallow
      refine iff_of_false (fun he => ?_) (not_not_intro hundefined)
      cases he.contentType
    · refine iff_of_true (explained_failure f allow) fun hundefined => ?_
      obtain ⟨allow', hallow⟩ := plan_of_undefined hundefined
      rw [hplan] at hallow
      cases f <;> cases hallow
  | execute c =>
    obtain ⟨op, hasked⟩ := exists_asked hplan
    have hdefined : ¬ Undefined g now r := fun hundefined =>
      (hundefined.method op hasked.offered).elim fun hm hhead => hasked.method.elim hm hhead
    simp only [hplan, Plan.run] at hstatus
    exact iff_of_true (explained_run hstatus) hdefined

/-- **An error explains itself, but for two**: with the status 400 or above, the answer to a request
other than HEAD is a problem of that status, unless the request is let through to a resource that
does not define its method, or has come to a handler and runs out of time. -/
theorem explained_iff (late : Bool) (g : Gate) (now : UInt64) (r : Request) (s : Store)
    (hmethod : r.method ≠ .head) (hstatus : 400 ≤ (attend late g now r s).1.status) :
    Explained (attend late g now r s).1 ↔
      ¬ Undefined g now r ∧ timesOut late g now r = false := by
  cases hlate : timesOut late g now r with
  | true =>
    rw [attend_of_timesOut hlate, Routing.sent, if_neg hmethod]
    refine iff_of_false (fun he => ?_) (fun h => Bool.noConfusion h.2)
    cases he.contentType
  | false =>
    rw [attend_of_not_timesOut hlate] at hstatus ⊢
    rw [explained_serve_iff hmethod hstatus, and_iff_left rfl]

/-- A query that finds nothing, for a name with a quote: its answer explains that, unless it is late. -/
theorem explained_noData :
    let g : Gate := ⟨.dataRepository, ⟨"", false, none⟩⟩
    let r : Request :=
      { method := .get, target := { path := "/nudr-dr/v2/policy-data/ues/\"/am-data" } }
    r.method ≠ .head ∧ 400 ≤ (attend false g 0 r .empty).1.status ∧
      Explained (attend false g 0 r .empty).1 ∧ 400 ≤ (attend true g 0 r .empty).1.status ∧
      ¬ Explained (attend true g 0 r .empty).1 := by
  intro g r
  have hmatch : Resource.Matches Resource.accessPolicy r.target.path := by decide +kernel
  have hroute : (Resource.rowOf Resource.accessPolicy).2.route? .get =
      some (Resource.endpoint "ReadAccessAndMobilityPolicyData" .query Resource.accessPolicy) := by
    decide +kernel
  have hplan : plan g 0 r = .execute (.query (seen r).target.path) :=
    plan_of_matches (by decide) hmatch rfl hroute
  have hstatus : 400 ≤ (attend false g 0 r .empty).1.status := by
    have hanswer : (attend false g 0 r .empty).1 = Resource.noData (seen r).target.path := by
      rw [attend_false, serve_of_execute hplan (by decide)]
      rfl
    rw [hanswer, Resource.status_noData]
    decide
  have hlate : timesOut true g 0 r = true := by
    rw [timesOut, isRouted_of_matches (by decide) hmatch rfl hroute, Bool.and_true]
  have hstatus' : 400 ≤ (attend true g 0 r .empty).1.status := by
    rw [attend_of_timesOut hlate]
    decide
  refine ⟨by decide, hstatus, (explained_iff false g 0 r .empty (by decide) hstatus).mpr ⟨?_, rfl⟩,
    hstatus', fun he => ?_⟩
  · exact fun h => (h.method .query (Resource.offers_of_route? hmatch hroute)).1 rfl
  · have hnot := ((explained_iff true g 0 r .empty (by decide) hstatus').mp he).2
    rw [hlate] at hnot
    cases hnot

/-- To remove a document that can only be queried and put is an error without a problem. -/
theorem removal_unexplained :
    let g : Gate := ⟨.dataRepository, ⟨"", false, none⟩⟩
    let r : Request := { method := .delete, target :=
      { path := "/nudr-dr/v2/subscription-data/imsi-1/20893/provisioned-data/am-data" } }
    r.method ≠ .head ∧ 400 ≤ (serve g 0 r .empty).1.status ∧ ¬ Explained (serve g 0 r .empty).1 := by
  intro g r
  have hexposed : Resource.Exposed r.target.path := by decide +kernel
  have hremove : ¬ Resource.Offers .remove r.target.path := by decide +kernel
  have hundefined : Undefined g 0 r := by
    refine ⟨rfl, hexposed, fun op hop => ⟨fun hm => hremove ?_, fun hhead => nomatch hhead.1⟩⟩
    obtain rfl : op = .remove := Resource.method_inj hm
    exact hop
  obtain ⟨allow, hplan⟩ := plan_of_undefined hundefined
  rw [serve_of_answer hplan (by decide)]
  exact ⟨by decide, show (400 : UInt16) ≤ 405 by decide, fun he => absurd he.contentType nofun⟩

end DataRepository.Exchange

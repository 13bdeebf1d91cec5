import DataRepository.Proofs.Exchange.Creation
import DataRepository.Proofs.Exchange.Interleaving
import DataRepository.Proofs.Exchange.Origin

/-! # Requests for one document at the same time

What exchanges make of one document, read off the order in which their plans were carried
out. Patches are applied to the document one after the other, each as a whole, so none is
lost. The first put of that order creates the document, and it is the only one that is
answered as a creation. An exchange that runs out of time makes no third step, so it has
no place in that order. -/
namespace DataRepository

open Http (Request Response)
open Access (Gate)
open Resource (Command Operation keyOf)

/-- The document after a patch; a patch that is refused leaves it as it was. -/
def Patch.attempt (doc patch : Json) : Json :=
  match patched doc patch with
  | .ok new => new
  | .error _ => doc

namespace Exchange

variable {g : Gate} {rs : List (UInt64 × Request)} {c : UInt64 × Request} {s : Store}
  {t : Traffic} {i : Nat} {a : Response} {path : String}

/-! ## Patches -/

/-- The patch that the request brings for the document at the path. -/
def patchAt? (g : Gate) (path : String) (c : UInt64 × Request) : Option Json :=
  match plan g c.1 c.2 with
  | .execute (.modify _ patch) => if c.2.target.path = path then some patch else none
  | _ => none

theorem patchAt?_of_plan {key : String} {patch : Json}
    (h : plan g c.1 c.2 = .execute (.modify key patch)) (hpath : c.2.target.path = path) :
    patchAt? g path c = some patch := by
  simp only [patchAt?, h, hpath, if_true]

theorem patchAt?_of_ne (h : c.2.target.path ≠ path) : patchAt? g path c = none := by
  unfold patchAt?
  split
  · exact if_neg h
  · rfl

theorem documentAt_serve_patch {doc : Json} (h : documentAt s path = some doc)
    (hmethod : c.2.target.path = path → c.2.method ≠ .put ∧ c.2.method ≠ .delete) :
    documentAt (serve g c.1 c.2 s).2 path =
      some ((patchAt? g path c).toList.foldl Patch.attempt doc) := by
  by_cases hpath : c.2.target.path = path
  · subst hpath
    obtain ⟨hput, hdelete⟩ := hmethod rfl
    unfold patchAt?
    cases hplan : plan g c.1 c.2 with
    | answer a =>
      simp only [serve, hplan, Plan.run]
      exact h
    | execute d =>
      obtain ⟨op, hasked⟩ := exists_asked hplan
      rw [hasked.documentAt_eq] at h ⊢
      simp only [serve, hplan, Plan.run]
      cases d with
      | query key => exact h
      | replace key location doc =>
        obtain rfl : Operation.replace = op := hasked.operation_eq
        exact absurd (hasked.asks (by decide)).method hput
      | modify key patch =>
        simp only [Command.key] at h ⊢
        simp only [Command.run, Store.patch, h, if_true, Option.toList_some, List.foldl_cons,
          List.foldl_nil, Patch.attempt]
        cases Patch.patched doc patch with
        | ok new => exact s.get?_insert_self key new
        | error why => exact h
      | remove key =>
        obtain rfl : Operation.remove = op := hasked.operation_eq
        exact absurd (hasked.asks (by decide)).method hdelete
  · rw [documentAt_serve_of_ne hpath, patchAt?_of_ne hpath, h]
    rfl

theorem documentAt_replay_patches {doc : Json} (h : documentAt s path = some doc)
    (hmethod : ∀ c ∈ rs, c.2.target.path = path → c.2.method ≠ .put ∧ c.2.method ≠ .delete) :
    documentAt (replay g rs s).2 path =
      some ((rs.filterMap (patchAt? g path)).foldl Patch.attempt doc) := by
  induction rs generalizing s doc with
  | nil => exact h
  | cons c rs ih =>
    obtain ⟨hfirst, hrest⟩ := List.forall_mem_cons.mp hmethod
    have hnext := ih (documentAt_serve_patch (g := g) h hfirst) hrest
    simp only [replay]
    rw [hnext]
    cases hpatch : patchAt? g path c with
    | none => rw [List.filterMap_cons_none hpatch]; rfl
    | some patch => rw [List.filterMap_cons_some hpatch]; rfl

/-! ## Creations -/

def putsAt (g : Gate) (path : String) (c : UInt64 × Request) : Bool :=
  match plan g c.1 c.2 with
  | .execute (.replace _ location _) => location.path = path
  | _ => false

theorem putsAt_iff :
    putsAt g path c = true ↔ ∃ doc, Asks g c.1 .replace path c.2 ∧ Carries c.2 doc := by
  constructor
  · intro h
    unfold putsAt at h
    split at h
    · rename_i key location doc hplan
      obtain ⟨op, hasked⟩ := exists_asked hplan
      obtain rfl : Operation.replace = op := hasked.operation_eq
      obtain ⟨rfl, hbody⟩ := put_of_asked hasked
      obtain rfl : c.2.target.path = path := of_decide_eq_true h
      exact ⟨doc, hasked.asks (by decide), readBody_eq_ok_iff.mp hbody⟩
    · cases h
  · rintro ⟨doc, hasks, hdoc⟩
    have hcommand : Command.ofRequest .replace (seen c.2) c.2.target.location =
        .ok (.replace (seen c.2).target.path c.2.target.location doc) := by
      rw [Command.ofRequest, body_seen, readBody_eq_ok_iff.mpr hdoc]
      rfl
    simp only [putsAt, plan_of_asks hasks, hcommand, Http.Target.path_location, hasks.target, decide_true]

/-- Only a put is answered as a creation, and only where nothing was. -/
theorem status_run_created {d : Command} (h : (d.run s).1.status = 201) :
    ∃ key location doc, d = .replace key location doc ∧ s.get? key = none := by
  cases d with
  | query key =>
    simp only [Command.run] at h
    cases hget : s.get? key <;> rw [hget] at h <;> cases h
  | replace key location doc =>
    cases hget : s.get? key with
    | some old =>
      simp only [Command.run, Store.put, hget] at h
      cases h
    | none => exact ⟨key, location, doc, rfl, hget⟩
  | modify key patch =>
    rcases hpatch : s.patch key patch with ⟨_ | _ | _, _⟩ <;>
      simp only [Command.run, hpatch] at h <;> cases h
  | remove key => cases h

theorem status_serve_created_iff :
    (serve g c.1 c.2 s).1.status = 201 ∧ c.2.target.path = path ↔
      putsAt g path c = true ∧ documentAt s path = none := by
  constructor
  · rintro ⟨hcreated, rfl⟩
    cases hplan : plan g c.1 c.2 with
    | answer a =>
      have hfailed := failed_of_answer hplan
      simp only [serve, hplan, Plan.run, status_sent] at hcreated
      simp only [Response.succeeded, hcreated] at hfailed
      cases hfailed
    | execute d =>
      obtain ⟨op, hasked⟩ := exists_asked hplan
      simp only [serve, hplan, Plan.run, status_sent] at hcreated
      obtain ⟨key, location, doc, rfl, hget⟩ := status_run_created hcreated
      obtain ⟨rfl, -⟩ := put_of_asked hasked
      refine ⟨?_, (hasked.documentAt_eq s).trans hget⟩
      simp only [putsAt, hplan, Http.Target.path_location, decide_true]
  · rintro ⟨hputs, hnone⟩
    obtain ⟨doc, hasks, hdoc⟩ := putsAt_iff.mp hputs
    rw [documentAt, if_pos hasks.offered.exposed] at hnone
    rw [answer_replace hasks hdoc, hnone]
    exact ⟨rfl, hasks.target⟩

theorem documentAt_serve_eq_none_iff
    (hmethod : c.2.target.path = path → c.2.method ≠ .delete) :
    documentAt (serve g c.1 c.2 s).2 path = none ↔
      documentAt s path = none ∧ putsAt g path c = false := by
  by_cases hpath : c.2.target.path = path
  · subst hpath
    unfold putsAt
    cases hplan : plan g c.1 c.2 with
    | answer a => simp only [serve, hplan, Plan.run, and_true]
    | execute d =>
      obtain ⟨op, hasked⟩ := exists_asked hplan
      rw [hasked.documentAt_eq, hasked.documentAt_eq]
      simp only [serve, hplan, Plan.run]
      cases d with
      | query key => simp only [Command.run, and_true]
      | replace key location doc =>
        obtain ⟨rfl, -⟩ := put_of_asked hasked
        simp only [Command.run, Command.key, Store.put, Store.get?_insert_self,
          Http.Target.path_location, decide_true]
        simp
      | modify key patch =>
        simp only [Command.run, Command.key, and_true]
        cases hget : s.get? key with
        | none => simp only [Store.patch, hget]
        | some doc =>
          cases hnew : Patch.patched doc patch with
          | ok new => simp only [Store.patch, hget, hnew, Store.get?_insert_self, reduceCtorEq]
          | error why => simp only [Store.patch, hget, hnew]
      | remove key =>
        obtain rfl : Operation.remove = op := hasked.operation_eq
        exact absurd (hasked.asks (by decide)).method (hmethod rfl)
  · have hputs : putsAt g path c = false := by
      rw [Bool.eq_false_iff]
      intro h
      obtain ⟨doc, hasks, -⟩ := putsAt_iff.mp h
      exact hpath hasks.target
    rw [documentAt_serve_of_ne hpath]
    exact (and_iff_left hputs).symm

theorem documentAt_replay_eq_none_iff
    (hmethod : ∀ c ∈ rs, c.2.target.path = path → c.2.method ≠ .delete) :
    documentAt (replay g rs s).2 path = none ↔
      documentAt s path = none ∧ ∀ c ∈ rs, putsAt g path c = false := by
  induction rs generalizing s with
  | nil => simp [replay]
  | cons c rs ih =>
    obtain ⟨hfirst, hrest⟩ := List.forall_mem_cons.mp hmethod
    simp only [replay]
    rw [ih hrest, documentAt_serve_eq_none_iff hfirst, List.forall_mem_cons, and_assoc]

/-! ## The order of the plans -/

namespace Traffic

theorem mem_of_mem_called {seq : List Nat} (h : c ∈ called rs seq) : c ∈ rs := by
  obtain ⟨i, -, hc⟩ := List.mem_filterMap.mp h
  exact List.mem_of_getElem? hc

theorem putsAt_called_iff {seq : List Nat} :
    (∀ c ∈ called rs seq, putsAt g path c = false) ↔
      ∀ i ∈ seq, (rs[i]?).any (putsAt g path) = false := by
  constructor
  · intro h i hi
    cases hc : rs[i]? with
    | none => rfl
    | some c => exact h c (List.mem_filterMap.mpr ⟨i, hi, hc⟩)
  · intro h c hmem
    obtain ⟨i, hi, hc⟩ := List.mem_filterMap.mp hmem
    have hputs := h i hi
    rwa [hc] at hputs

/-- Whether nothing has been put at the path before: that is so as long as the order has no put for it. -/
theorem documentAt_called_eq_none_iff (hnone : documentAt s path = none)
    (hmethod : ∀ c ∈ rs, c.2.target.path = path → c.2.method ≠ .delete) (seq : List Nat) :
    documentAt (replay g (called rs seq) s).2 path = none ↔
      ∀ i ∈ seq, (rs[i]?).any (putsAt g path) = false := by
  rw [documentAt_replay_eq_none_iff fun c hc => hmethod c (mem_of_mem_called hc), putsAt_called_iff]
  exact and_iff_right hnone

/-- Where there is no document and none is removed, a creation is the first put of the order. -/
theorem Serial.first_of_created (h : Serial g rs s t) (hnone : documentAt s path = none)
    (hmethod : ∀ c ∈ rs, c.2.target.path = path → c.2.method ≠ .delete)
    (hcreated : ∃ c a, rs[i]? = some c ∧ c.2.target.path = path ∧ t.response? i = some a ∧
      a.status = 201) :
    t.order.find? (fun i => (rs[i]?).any (putsAt g path)) = some i := by
  obtain ⟨c, a, hc, hpath, ha, hcreated⟩ := hcreated
  obtain ⟨before, after, horder, rfl⟩ := h.inTurn hc ha
  obtain ⟨hputs, hbefore⟩ := status_serve_created_iff.mp ⟨hcreated, hpath⟩
  rw [List.find?_eq_some_iff_append]
  refine ⟨by rw [hc]; exact hputs, before, after, horder, fun j hj => ?_⟩
  rw [(documentAt_called_eq_none_iff hnone hmethod before).mp hbefore j hj]
  rfl

/-- The first put of the order is a creation, once it is answered. -/
theorem Serial.created_of_first (h : Serial g rs s t) (hnone : documentAt s path = none)
    (hmethod : ∀ c ∈ rs, c.2.target.path = path → c.2.method ≠ .delete)
    (hanswered : (t.response? i).isSome)
    (hfirst : t.order.find? (fun i => (rs[i]?).any (putsAt g path)) = some i) :
    ∃ c a, rs[i]? = some c ∧ c.2.target.path = path ∧ t.response? i = some a ∧ a.status = 201 := by
  obtain ⟨hputs, before, after, horder, hbefore⟩ := List.find?_eq_some_iff_append.mp hfirst
  obtain ⟨a, ha⟩ := Option.isSome_iff_exists.mp hanswered
  cases hc : rs[i]? with
  | none => rw [hc] at hputs; cases hputs
  | some c =>
    rw [hc] at hputs
    have hempty := (documentAt_called_eq_none_iff (g := g) hnone hmethod before).mpr
      fun j hj => by simpa using hbefore j hj
    obtain ⟨hcreated, hpath⟩ := status_serve_created_iff.mpr ⟨hputs, hempty⟩
    rw [h.serve_eq hc ha horder] at hcreated
    exact ⟨c, a, rfl, hpath, ha, hcreated⟩

end Traffic

open Traffic

/-! ## Exchanges one after the other -/

/-- What exchanges at the same time have in common with the same requests one after the other. -/
structure Linearized (g : Gate) (rs : List (UInt64 × Request)) (s : Store) (t : Traffic) : Prop where
  /-- No request is carried out twice. -/
  once : t.order.Nodup ∧ ∀ i ∈ t.order, i < rs.length
  /-- What is answered has been carried out. -/
  settled : ∀ i < rs.length, (t.response? i).isSome → i ∈ t.order
  /-- The store and the responses are those of the requests one after the other, as long as those that
  come to a command are in the order in which they were carried out. -/
  serial : ∀ seq : List Nat, (∀ i ∈ seq, i < rs.length) →
    seq.filter (operates g rs) = t.order.filter (operates g rs) →
      (replay g (called rs seq) s).2 = t.store ∧
        ∀ (k i : Nat) (a : Response), seq[k]? = some i → t.response? i = some a →
          (replay g (called rs seq) s).1[k]? = some a
  /-- A document that is only patched is what all the patches make of it, each applied as a whole. -/
  patched : ∀ path doc, documentAt s path = some doc →
    (∀ c ∈ rs, c.2.target.path = path → c.2.method ≠ .put ∧ c.2.method ≠ .delete) →
      documentAt t.store path =
        some (((called rs t.order).filterMap (patchAt? g path)).foldl Patch.attempt doc)
  /-- Of the puts of a document that was not there exactly one is answered as a creation, once what has
  been carried out is answered. -/
  created : ∀ path, documentAt s path = none →
    (∀ c ∈ rs, c.2.target.path = path → c.2.method ≠ .delete) →
    (∃ i ∈ t.order, ∃ c doc, rs[i]? = some c ∧ Asks g c.1 .replace path c.2 ∧ Carries c.2 doc) →
    (∀ i ∈ t.order, (t.response? i).isSome) →
      ∃! i, ∃ c a, rs[i]? = some c ∧ c.2.target.path = path ∧ t.response? i = some a ∧ a.status = 201

theorem existsUnique_created (h : Serial g rs s t) (hnone : documentAt s path = none)
    (hmethod : ∀ c ∈ rs, c.2.target.path = path → c.2.method ≠ .delete)
    (hputs : ∃ i ∈ t.order, ∃ c doc, rs[i]? = some c ∧ Asks g c.1 .replace path c.2 ∧ Carries c.2 doc)
    (hanswered : ∀ i ∈ t.order, (t.response? i).isSome) :
    ∃! i, ∃ c a, rs[i]? = some c ∧ c.2.target.path = path ∧ t.response? i = some a ∧
      a.status = 201 := by
  obtain ⟨j, hj, c, doc, hc, hasks, hdoc⟩ := hputs
  have hjputs : (rs[j]?).any (putsAt g path) = true := by
    rw [hc]
    exact putsAt_iff.mpr ⟨doc, hasks, hdoc⟩
  have hsome : (t.order.find? fun i => (rs[i]?).any (putsAt g path)).isSome :=
    List.find?_isSome.mpr ⟨j, hj, hjputs⟩
  obtain ⟨i, hi⟩ := Option.isSome_iff_exists.mp hsome
  refine ⟨i, h.created_of_first hnone hmethod (hanswered i (List.mem_of_find?_eq_some hi)) hi, ?_⟩
  intro k hk
  exact Option.some.inj ((h.first_of_created hnone hmethod hk).symm.trans hi)

/-- **Requests that are served at the same time are served one after the other**, for any requests and
any order of their steps: in the order of the third step of each, which carries out its plan. An exchange
is answered once it has made its four steps. -/
theorem linearized (g : Gate) (rs : List (UInt64 × Request)) (s : Store) (schedule : List Nat) :
    Linearized g rs s (interleave g rs s schedule) ∧
      (interleave g rs s schedule).order = (thirdsAfter [] schedule).filter (· < rs.length) ∧
      ∀ i < rs.length,
        ((interleave g rs s schedule).response? i).isSome ↔ 4 ≤ schedule.count i := by
  have hserial := serial_interleave g rs s schedule
  refine ⟨⟨⟨hserial.nodup, hserial.within⟩, ?_, ?_, ?_, ?_⟩, order_interleave g rs s schedule, ?_⟩
  · intro i hi hanswered
    obtain ⟨a, ha⟩ := Option.isSome_iff_exists.mp hanswered
    exact (hserial.inTurn (List.getElem?_eq_getElem hi) ha).mem
  · exact fun seq => hserial.replay_eq
  · intro path doc hdoc hmethod
    rw [hserial.store]
    exact documentAt_replay_patches hdoc fun c hc => hmethod c (mem_of_mem_called hc)
  · exact fun path => existsUnique_created hserial
  · exact fun i hi => isSome_response?_iff hi schedule

/-- Two patches of one document and two puts of another, with their steps mixed: the second patch is
carried out before the first. -/
theorem linearized_mixed :
    let whole (n : UInt64) : Json := .number (.whole (Whole.ofWord n))
    let other : Http.Target := { path := "/nudr-dr/v2/policy-data/ues/imsi-1/am-data" }
    let s := (serve openGate 0 (contextRequest .put "\x7b\x7d".toList) .empty).2
    let p := contextRequest .patch "\x7b\"a\":1\x7d".toList
    let q := contextRequest .patch "\x7b\"a\":2,\"b\":3\x7d".toList
    let rs : List (UInt64 × Request) := [(0, p), (0, q), (0, putOne other), (0, putOne other)]
    let schedule := [0, 1, 2, 1, 1, 3, 0, 0, 2, 3, 3, 2, 1, 3, 2, 0]
    (interleave openGate rs s schedule).order = [1, 0, 3, 2] ∧
      documentAt (interleave openGate rs s schedule).store contextPath =
        some (.object [("a", whole 1), ("b", whole 3)]) ∧
      ∃! i, ∃ c a, rs[i]? = some c ∧ c.2.target.path = other.path ∧
        (interleave openGate rs s schedule).response? i = some a ∧ a.status = 201 := by
  intro whole other s p q rs schedule
  have hoffers : Resource.Offers .replace other.path :=
    ⟨Resource.endpoint "CreateAccessAndMobilityPolicyData" .replace Resource.accessPolicy, by decide,
      rfl, by decide +kernel⟩
  have hcontext : other.path ≠ contextPath := by decide +kernel
  have hput : Resource.readBody (Text.utf8 "\x7b\x7d".toList) = .ok (.object []) := by decide +kernel
  have hp : Resource.readBody p.body = .ok (.object [("a", whole 1)]) := by decide +kernel
  have hq : Resource.readBody q.body = .ok (.object [("a", whole 2), ("b", whole 3)]) := by
    decide +kernel
  have hdoc : documentAt s contextPath = some (.object []) := by
    rw [documentAt, if_pos ⟨_, by decide, matches_contextPath⟩, keyOf_contextPath]
    exact get?_serve_put (plan_put_context hput)
  have hnone : documentAt s other.path = none :=
    (documentAt_serve_of_ne (Ne.symm hcontext)).trans (documentAt_empty other.path)
  have hpatched : ∀ c ∈ rs, c.2.target.path = contextPath → c.2.method ≠ .put ∧ c.2.method ≠ .delete := by
    simp [rs, p, q, contextRequest, putOne, hcontext]
  have hmethods : ∀ c ∈ rs, c.2.target.path = other.path → c.2.method ≠ .delete := by
    simp [rs, p, q, contextRequest, putOne]
  obtain ⟨h, horder, hanswered⟩ := linearized openGate rs s schedule
  have hall : ∀ i < rs.length, ((interleave openGate rs s schedule).response? i).isSome := by
    have hcount : ∀ i < 4, 4 ≤ schedule.count i := by decide
    exact fun i hi => (hanswered i hi).mpr (hcount i hi)
  have hthirds : (thirdsAfter [] schedule).filter (· < rs.length) = [1, 0, 3, 2] := by decide
  rw [hthirds] at horder
  have hputs : ∃ i ∈ (interleave openGate rs s schedule).order, ∃ c doc, rs[i]? = some c ∧
      Asks openGate c.1 .replace other.path c.2 ∧ Carries c.2 doc :=
    ⟨2, by simp [horder], (0, putOne other), _, rfl, ⟨refuses_of_open rfl, rfl, rfl, hoffers⟩,
      carries_putOne other⟩
  have hcarriedOut : ∀ i ∈ (interleave openGate rs s schedule).order,
      ((interleave openGate rs s schedule).response? i).isSome :=
    fun i hi => hall i (h.once.2 i hi)
  refine ⟨horder, ?_, h.created other.path hnone hmethods hputs hcarriedOut⟩
  have hpatches : (called rs [1, 0, 3, 2]).filterMap (patchAt? openGate contextPath) =
      [.object [("a", whole 2), ("b", whole 3)], .object [("a", whole 1)]] := by
    have hcalled : called rs [1, 0, 3, 2] = [(0, q), (0, p), (0, putOne other), (0, putOne other)] :=
      rfl
    have hfirst : patchAt? openGate contextPath (0, p) = some _ :=
      patchAt?_of_plan (plan_patch_context hp) rfl
    have hsecond : patchAt? openGate contextPath (0, q) = some _ :=
      patchAt?_of_plan (plan_patch_context hq) rfl
    have hother : patchAt? openGate contextPath (0, putOne other) = none := patchAt?_of_ne hcontext
    rw [hcalled, List.filterMap_cons_some hsecond, List.filterMap_cons_some hfirst,
      List.filterMap_cons_none hother, List.filterMap_cons_none hother, List.filterMap_nil]
  rw [h.patched contextPath _ hdoc hpatched, horder, hpatches]
  decide +kernel

end Exchange

end DataRepository

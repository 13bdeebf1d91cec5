import DataRepository.Proofs.Exchange.Refusal
import DataRepository.Proofs.Resource.Keys
import DataRepository.Proofs.Routing.Registered

/-! # Which requests reach which operation

The search for a path compares all patterns at once and turns back where a word of one pattern could
also be a parameter of another. What it comes to is what the patterns say segment by segment: a path
is found exactly if one of them describes it, no two describe one path, and the endpoint that serves a
request is the one of that pattern and the method (`dispatched`). A parameter stands for one segment,
which may be empty. -/
namespace DataRepository

open Http (Method Request Response)
open Routing (Reads Route)

namespace Resource

variable {t path : String} {m : Method} {e : Route Operation}

/-! ## Patterns and paths -/

/-- Whether the segments of a path after that of the service are read by the words of a pattern, one by
one. -/
def Describes (pattern path : String) : Prop :=
  ∃ below, path = servicePath ++ below ∧
    Reads (pattern.toList.splitOn '/') (below.toList.splitOn '/')

theorem splitOn_servicePath (cs : List Char) : (servicePath.toList ++ '/' :: cs).splitOn '/' =
    [] :: "nudr-dr".toList :: "v2".toList :: cs.splitOn '/' := by
  have hservice : servicePath.toList ++ '/' :: cs =
      [] ++ '/' :: ("nudr-dr".toList ++ '/' :: ("v2".toList ++ '/' :: cs)) := rfl
  have hfirst : '/' ∉ "nudr-dr".toList := by decide
  have hsecond : '/' ∉ "v2".toList := by decide
  rw [hservice, List.splitOn_append_cons_self_of_not_mem List.not_mem_nil,
    List.splitOn_append_cons_self_of_not_mem hfirst, List.splitOn_append_cons_self_of_not_mem hsecond]

theorem splitOn_slash (cs : List Char) : ('/' :: cs).splitOn '/' = [] :: cs.splitOn '/' :=
  List.splitOn_append_cons_self_of_not_mem List.not_mem_nil cs

/-- The words of a pattern and of the service before it read a path exactly if the words of the pattern
read what comes after the service. -/
theorem describes_iff {cs : List Char} (ht : t.toList = '/' :: cs) : Describes t path ↔ Matches t path := by
  have hwords : wordsOf t = [] :: "nudr-dr".toList :: "v2".toList :: cs.splitOn '/' := by
    rw [wordsOf, located, String.toList_append, ht, splitOn_servicePath]
  unfold Describes Matches
  rw [hwords, ht, splitOn_slash]
  constructor
  · intro h
    obtain ⟨below, rfl, hreads⟩ := h
    obtain ⟨first, segs, hfirst, hsegs, hsplit⟩ := List.forall₂_cons_left_iff.mp hreads
    obtain rfl : [] = first := hfirst.resolve_left nofun
    have hne : segs ≠ [] := by
      rintro rfl
      exact List.splitOn_ne_nil '/' cs (List.forall₂_nil_right_iff.mp hsegs)
    obtain ⟨rest, hbelow, -, rfl⟩ := (Text.splitOn_eq_cons_iff hne).mp hsplit
    rw [String.toList_append, hbelow, List.nil_append, splitOn_servicePath]
    exact .cons (.inr rfl) (.cons (.inr rfl) (.cons (.inr rfl) hsegs))
  · intro h
    obtain ⟨first, _, hfirst, hafter, hsplit⟩ := List.forall₂_cons_left_iff.mp h
    obtain ⟨second, _, hsecond, hlater, rfl⟩ := List.forall₂_cons_left_iff.mp hafter
    obtain ⟨third, segs, hthird, hsegs, rfl⟩ := List.forall₂_cons_left_iff.mp hlater
    obtain rfl : [] = first := hfirst.resolve_left nofun
    obtain rfl := hsecond.resolve_left (by decide)
    obtain rfl := hthird.resolve_left (by decide)
    have hne : segs ≠ [] := by
      rintro rfl
      exact List.splitOn_ne_nil '/' cs (List.forall₂_nil_right_iff.mp hsegs)
    obtain ⟨_, hpath, -, hsplit⟩ := (Text.splitOn_eq_cons_iff (List.cons_ne_nil _ _)).mp hsplit
    obtain ⟨_, rfl, -, hsplit⟩ := (Text.splitOn_eq_cons_iff (List.cons_ne_nil _ _)).mp hsplit
    obtain ⟨rest, rfl, -, rfl⟩ := (Text.splitOn_eq_cons_iff hne).mp hsplit
    refine ⟨String.ofList ('/' :: rest), ?_, ?_⟩
    · rw [← String.toList_inj, String.toList_append, String.toList_ofList, hpath]
      rfl
    · rw [String.toList_ofList, splitOn_slash]
      exact .cons (.inr rfl) hsegs

theorem describes_iff_of_mem (ht : t ∈ patterns) : Describes t path ↔ Matches t path := by
  have hslash : ∀ t ∈ patterns, t.toList.head? = some '/' := by decide +kernel
  obtain ⟨cs, hcs⟩ := List.head?_eq_some_iff.mp (hslash t ht)
  exact describes_iff hcs

/-- **Exactly one pattern describes the path of a resource**, and none that of anything else. -/
theorem exposed_iff : Exposed path ↔ ∃! t, t ∈ patterns ∧ Describes t path := by
  constructor
  · intro h
    obtain ⟨t, ht, hmatch⟩ := h
    refine ⟨t, ⟨ht, (describes_iff_of_mem ht).mpr hmatch⟩, fun t' h' => ?_⟩
    exact eq_of_matches h'.1 ht ((describes_iff_of_mem h'.1).mp h'.2) hmatch
  · intro h
    obtain ⟨t, ⟨ht, hdescribes⟩, -⟩ := h
    exact ⟨t, ht, (describes_iff_of_mem ht).mp hdescribes⟩

/-! ## Endpoints -/

/-- An endpoint of a pattern that serves a method: its own, and HEAD as well where it serves GET. -/
structure Serves (e : Route Operation) (pattern : String) (m : Method) : Prop where
  listed : e ∈ endpoints
  located : e.pattern = pattern
  method : e.method = m ∨ (m = .head ∧ e.method = .get)

theorem given?_rowOf_iff (ht : t ∈ patterns) :
    (rowOf t).2.given? m = some e ↔ e ∈ endpoints ∧ e.pattern = t ∧ e.method = m := by
  have hsound : ∀ t ∈ patterns, (rowOf t).2.isSound = true := by decide +kernel
  rw [Routing.given?_eq_some_iff (hsound t ht), rowOf, List.mem_filter, decide_eq_true_eq, and_assoc]

/-- The route of a pattern for a method is the endpoint that serves it. -/
theorem route?_rowOf_iff (ht : t ∈ patterns) : (rowOf t).2.route? m = some e ↔ Serves e t m := by
  have hmethod : ∀ e ∈ endpoints, e.method ≠ .head ∧ e.method ≠ .options ∧ e.method ≠ .connect := by
    decide
  have hnone : ∀ m, (∀ e ∈ endpoints, e.method ≠ m) → (rowOf t).2.given? m = none := by
    intro m hm
    refine Option.eq_none_iff_forall_ne_some.mpr fun e he => ?_
    obtain ⟨hlisted, -, hme⟩ := (given?_rowOf_iff ht).mp he
    exact hm e hlisted hme
  have hserves : Serves e t m ↔ e ∈ endpoints ∧ e.pattern = t ∧
      (e.method = m ∨ (m = .head ∧ e.method = .get)) :=
    ⟨fun h => ⟨h.listed, h.located, h.method⟩, fun h => ⟨h.1, h.2.1, h.2.2⟩⟩
  have hhead := hnone .head fun e he => (hmethod e he).1
  have hoptions := hnone .options fun e he => (hmethod e he).2.1
  have hconnect := hnone .connect fun e he => (hmethod e he).2.2
  rw [hserves]
  cases m with
  | head =>
    rw [Routing.Row.route?, hhead, Option.none_or, given?_rowOf_iff ht]
    refine and_congr_right fun hlisted => and_congr_right fun _ => ?_
    exact ⟨fun hget => .inr ⟨rfl, hget⟩, fun h => (h.resolve_left (hmethod e hlisted).1).2⟩
  | options =>
    rw [Routing.Row.route?, hoptions, hconnect]
    refine iff_of_false (fun h => by cases h) fun h => ?_
    obtain ⟨hlisted, -, hm | hm⟩ := h
    · exact (hmethod e hlisted).2.1 hm
    · cases hm.1
  | connect =>
    refine iff_of_false (fun h => by cases h) fun h => ?_
    obtain ⟨hlisted, -, hm | hm⟩ := h
    · exact (hmethod e hlisted).2.2 hm
    · cases hm.1
  | _ => simp only [Routing.Row.route?, given?_rowOf_iff ht, reduceCtorEq, false_and, or_false]

end Resource

namespace Exchange

open Access (Gate)
open Resource (Describes Serves patterns)

variable {g : Gate} {now : UInt64} {r : Request}

theorem reach_eq_nowhere_iff : (passage g now r).reach = .nowhere ↔ ¬ Resource.Exposed r.target.path := by
  rw [← Resource.isSome_row?_iff]
  unfold passage Routing.Table.pass
  cases hrow : Resource.table.row? r.target.path with
  | none => exact iff_of_true rfl nofun
  | some row =>
    refine iff_of_false (fun h => ?_) (not_not_intro rfl)
    dsimp only at h
    split at h <;> cases h

/-- A request that is let through meets the endpoint that serves its method, of the pattern that
describes its path. -/
theorem reach_eq_route_iff (hpassed : g.refuses now r = false) {e : Route Resource.Operation} :
    (passage g now r).reach = .route e ↔
      ∃ t ∈ patterns, Describes t r.target.path ∧ Serves e t r.method := by
  unfold passage Routing.Table.pass
  cases hrow : Resource.table.row? r.target.path with
  | none =>
    refine iff_of_false nofun fun h => ?_
    obtain ⟨t, ht, hdescribes, -⟩ := h
    have hsome := Resource.isSome_row?_iff.mpr ⟨t, ht, (Resource.describes_iff_of_mem ht).mp hdescribes⟩
    rw [hrow] at hsome
    cases hsome
  | some row =>
    obtain ⟨t, ht, hmatch, rfl⟩ := Resource.row?_eq_some_iff.mp hrow
    have hreach : (∃ t ∈ patterns, Describes t r.target.path ∧ Serves e t r.method) ↔
        (Resource.rowOf t).2.route? r.method = some e := by
      rw [Resource.route?_rowOf_iff ht]
      constructor
      · intro h
        obtain ⟨t', ht', hdescribes, hserves⟩ := h
        have hmatch' := (Resource.describes_iff_of_mem ht').mp hdescribes
        rwa [Resource.eq_of_matches ht ht' hmatch hmatch']
      · intro h
        exact ⟨t, ht, (Resource.describes_iff_of_mem ht).mpr hmatch, h⟩
    rw [hreach]
    simp only [judgement_of_passed hpassed]
    cases (Resource.rowOf t).2.route? r.method with
    | none => exact iff_of_false nofun nofun
    | some route => simp only [Routing.Reach.route.injEq, Option.some.injEq]

/-- **The path of a request names a resource exactly if one pattern describes it, and it is never two
that do**; any other path is told that there is nothing. What a request that is let through reaches is
fixed by that pattern and the method. -/
theorem dispatched (g : Gate) (now : UInt64) (r : Request) :
    ((passage g now r).reach ≠ .nowhere ↔ ∃! t, t ∈ patterns ∧ Describes t r.target.path) ∧
      ((passage g now r).reach = .nowhere →
        ∀ s, serve g now r s = (Routing.sent r.method missing, s)) ∧
      (g.refuses now r = false → ∀ e, (passage g now r).reach = .route e ↔
        ∃ t ∈ patterns, Describes t r.target.path ∧ Serves e t r.method) := by
  refine ⟨?_, fun hreach s => ?_, fun hpassed e => reach_eq_route_iff hpassed⟩
  · rw [← Resource.exposed_iff, Ne, reach_eq_nowhere_iff, not_not]
  · simp only [serve, plan, planFor, hreach, Routing.Passage.settled?, Option.getD_some, Plan.run]

/-- A path in which parameters have the names of other words: only one pattern describes it, and
neither of the two that its words seem to lead to. -/
theorem dispatched_crossed :
    let g : Gate := ⟨.dataRepository, ⟨"", false, none⟩⟩
    let r : Request := { method := .put, target :=
      { path := "/nudr-dr/v2/subscription-data/ues/context-data/provisioned-data/am-data" } }
    g.refuses 0 r = false ∧ (passage g 0 r).reach ≠ .nowhere ∧ (passage g 0 r).reach = .route
      (Resource.endpoint "CreateAmData" .replace Resource.accessData) := by
  intro g r
  have hdescribes : Describes Resource.accessData r.target.path :=
    (Resource.describes_iff_of_mem (by decide)).mpr (by decide +kernel)
  obtain ⟨hnowhere, -, hroute⟩ := dispatched g 0 r
  refine ⟨rfl, hnowhere.mpr ?_, ?_⟩
  · exact Resource.exposed_iff.mp ⟨Resource.accessData, by decide, by decide +kernel⟩
  · exact (hroute rfl _).mpr ⟨Resource.accessData, by decide, hdescribes, by decide, rfl, .inl rfl⟩

/-- A path with an empty segment in the place of a parameter names a resource, and a document can be
put there. -/
theorem empty_segment_named :
    let g : Gate := ⟨.dataRepository, ⟨"", false, none⟩⟩
    let r : Request :=
      { method := .put, target := { path := "/nudr-dr/v2/policy-data/ues//am-data" }, body := [49] }
    (¬ ∃ t ∈ patterns, ∃ below, r.target.path = Resource.servicePath ++ below ∧
      List.Forall₂ (fun w s => (w.head? = some ':' ∧ s ≠ []) ∨ w = s) (t.toList.splitOn '/')
        (below.toList.splitOn '/')) ∧
      (passage g 0 r).reach =
        .route (Resource.endpoint "CreateAccessAndMobilityPolicyData" .replace Resource.accessPolicy) := by
  intro g r
  have hunread : ∀ t ∈ patterns,
      ¬ List.Forall₂ (fun w s => (w.head? = some ':' ∧ s ≠ []) ∨ w = s) (t.toList.splitOn '/')
        ("/policy-data/ues//am-data".toList.splitOn '/') := by
    decide +kernel
  have hpath : r.target.path = Resource.servicePath ++ "/policy-data/ues//am-data" := by decide +kernel
  have hdescribes : Describes Resource.accessPolicy r.target.path :=
    (Resource.describes_iff_of_mem (by decide)).mpr (by decide +kernel)
  constructor
  · intro h
    obtain ⟨t, ht, below, hbelow, hread⟩ := h
    obtain rfl : "/policy-data/ues//am-data" = below :=
      String.append_right_inj Resource.servicePath |>.mp (hpath.symm.trans hbelow)
    exact hunread t ht hread
  · refine (reach_eq_route_iff rfl).mpr ⟨Resource.accessPolicy, by decide, hdescribes, ?_⟩
    exact ⟨by decide, rfl, .inl rfl⟩

end Exchange

end DataRepository

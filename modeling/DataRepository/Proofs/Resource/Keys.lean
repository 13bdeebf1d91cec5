import DataRepository.Proofs.Resource.Paths

/-! # Keys of resources

The key of a resource is its path without that of the service. Nothing else is lost
from the path, so resources with different paths have different keys. -/
namespace DataRepository.Resource

open Routing

def keyOf (path : String) : String := unmounted servicePath path

theorem exists_segments {path : String} (h : Exposed path) :
    ∃ s ss, s ≠ [] ∧
      path.toList.splitOn '/' = [] :: "nudr-dr".toList :: "v2".toList :: s :: ss := by
  obtain ⟨t, ht, hmatch⟩ := h
  obtain ⟨htake, hhead⟩ := texts_patterns.2.2.1 t ht
  obtain ⟨w, ws, hdrop⟩ : ∃ w ws, (wordsOf t).drop 3 = w :: ws := by
    cases hdrop : (wordsOf t).drop 3 with
    | nil => simp [hdrop] at hhead
    | cons w ws => exact ⟨w, ws, rfl⟩
  have hw : w ≠ [] ∧ w.head? ≠ some ':' := by
    rw [hdrop, List.head?_cons] at hhead
    simp only [List.mem_cons, Option.some.injEq, List.not_mem_nil, or_false] at hhead
    rcases hhead with rfl | rfl <;> decide
  have hwords : wordsOf t = [] :: "nudr-dr".toList :: "v2".toList :: w :: ws := by
    rw [← List.take_append_drop 3 (wordsOf t), htake, hdrop]
    rfl
  unfold Matches at hmatch
  rw [hwords] at hmatch
  obtain ⟨s₀, _, h₀, hafter, heq⟩ := List.forall₂_cons_left_iff.mp hmatch
  obtain ⟨s₁, _, h₁, hlater, rfl⟩ := List.forall₂_cons_left_iff.mp hafter
  obtain ⟨s₂, _, h₂, hlast, rfl⟩ := List.forall₂_cons_left_iff.mp hlater
  obtain ⟨s₃, ss, h₃, -, rfl⟩ := List.forall₂_cons_left_iff.mp hlast
  obtain rfl := h₀.resolve_left (by decide)
  obtain rfl := h₁.resolve_left (by decide)
  obtain rfl := h₂.resolve_left (by decide)
  obtain rfl := h₃.resolve_left hw.2
  exact ⟨w, ss, hw.1, heq⟩

/-- **The path of a resource is that of the service with its key.** -/
theorem servicePath_append_keyOf {path : String} (h : Exposed path) :
    servicePath ++ keyOf path = path := by
  obtain ⟨s, ss, hs, hsplit⟩ := exists_segments h
  have hpath : ['/'].intercalate (path.toList.splitOn '/') = path.toList :=
    List.intercalate_splitOn '/'
  have hslash : '/' ∉ s := Text.not_mem_of_mem_splitOn (by rw [hsplit]; simp)
  have hhead : (['/'].intercalate (s :: ss)).head? ≠ some '/' := by
    obtain ⟨c, cs, rfl⟩ := List.exists_cons_of_ne_nil hs
    rw [Pattern.intercalate_cons, List.cons_append, List.head?_cons]
    intro hc
    exact hslash (Option.some.inj hc ▸ List.mem_cons_self)
  have hremaining : remaining (segments path.toList) (segments servicePath.toList) =
      some (s :: ss) := by
    have hservice : segments servicePath.toList = ["nudr-dr".toList, "v2".toList] := by decide
    rw [hservice, segments, hsplit]
    simp [remaining]
  have hkey : keyOf path = String.ofList ('/' :: ['/'].intercalate (s :: ss)) := by
    simp only [keyOf, unmounted, hremaining, if_neg hhead]
  have hservice : servicePath.toList = "/nudr-dr/v2".toList := rfl
  rw [← String.toList_inj, String.toList_append, hkey, hservice, ← hpath, hsplit]
  simp [List.intercalate_cons_cons]

theorem eq_of_keyOf_eq {path other : String} (h : Exposed path) (h' : Exposed other)
    (hkey : keyOf path = keyOf other) : path = other := by
  rw [← servicePath_append_keyOf h, hkey, servicePath_append_keyOf h']

/-! ## Operations -/

/-- Whether the resource at a path defines an operation. -/
def Offers (op : Operation) (path : String) : Prop :=
  ∃ e ∈ endpoints, e.handler = op ∧ Matches e.pattern path

instance (op : Operation) (path : String) : Decidable (Offers op path) :=
  inferInstanceAs (Decidable (∃ e ∈ endpoints, _))

variable {op : Operation} {path : String}

theorem pattern_mem_patterns : ∀ e ∈ endpoints, e.pattern ∈ patterns := by decide

theorem Offers.exposed (h : Offers op path) : Exposed path := by
  obtain ⟨e, he, -, hmatch⟩ := h
  exact ⟨e.pattern, pattern_mem_patterns e he, hmatch⟩

theorem method_inj : ∀ {op op' : Operation}, op.method = op'.method → op = op' := by
  intro op op' h
  cases op <;> cases op' <;> first | rfl | cases h

/-- What can be put can be queried. -/
theorem Offers.query (h : Offers .replace path) : Offers .query path := by
  have hquery : ∀ e ∈ endpoints, e.handler = .replace →
      ∃ e' ∈ endpoints, e'.handler = .query ∧ e'.pattern = e.pattern := by decide
  obtain ⟨e, he, hop, hmatch⟩ := h
  obtain ⟨e', he', hop', hpattern⟩ := hquery e he hop
  exact ⟨e', he', hop', hpattern ▸ hmatch⟩

theorem Offers.route? (h : Offers op path) : ∃ t ∈ patterns, Matches t path ∧
    ∃ route, (rowOf t).2.route? op.method = some route ∧ route.handler = op := by
  obtain ⟨e, he, rfl, hmatch⟩ := h
  refine ⟨e.pattern, pattern_mem_patterns e he, hmatch, ?_⟩
  have hgiven : ((rowOf e.pattern).2.given? e.handler.method).isSome := by
    rw [Row.given?, List.find?_isSome]
    exact ⟨e, List.mem_filter.mpr ⟨he, by simp⟩, by simpa using method_of_mem_endpoints e he⟩
  obtain ⟨route, hroute⟩ := Option.isSome_iff_exists.mp hgiven
  have hrow : (rowOf e.pattern).2.route? e.handler.method =
      (rowOf e.pattern).2.given? e.handler.method := by
    cases e.handler <;> rfl
  exact ⟨route, hrow.trans hroute, method_inj (method_of_given? hroute)⟩

/-- A route for the method of an operation is a route to that operation of the resource. -/
theorem offers_of_route? {t : String} {m : Http.Method} {route : Route Operation}
    (hmatch : Matches t path) (h : (rowOf t).2.route? m = some route) :
    Offers route.handler path := by
  have hmem : route ∈ endpoints.filter (·.pattern = t) := by
    unfold Row.route? Row.given? at h
    split at h
    · rcases Option.or_eq_some_iff.mp h with h | ⟨-, h⟩ <;> exact List.mem_of_find?_eq_some h
    · rcases Option.or_eq_some_iff.mp h with h | ⟨-, h⟩ <;> exact List.mem_of_find?_eq_some h
    · cases h
    · exact List.mem_of_find?_eq_some h
  obtain ⟨he, ht⟩ := List.mem_filter.mp hmem
  have ht : route.pattern = t := by simpa using ht
  exact ⟨route, he, rfl, ht ▸ hmatch⟩

end DataRepository.Resource

import DataRepository.Proofs.Routing.Segments
import DataRepository.Resource.Endpoints

/-! # The paths of the resources

The table of the resources, written out, and the paths that it has a row for:
those whose segments one of the patterns reads. -/
namespace DataRepository.Resource

open Routing

def patterns : List String := [
  authenticationSubscription, accessData, sessionData, sessionSelectionData, accessContext,
  accessPolicy, sessionPolicy]

def located (t : String) : String := servicePath ++ t

def wordsOf (t : String) : List (List Char) := (located t).toList.splitOn '/'

def Matches (t path : String) : Prop := Reads (wordsOf t) (path.toList.splitOn '/')

instance (t path : String) : Decidable (Matches t path) :=
  inferInstanceAs (Decidable (Reads _ _))

def Exposed (path : String) : Prop := ∃ t ∈ patterns, Matches t path

instance (path : String) : Decidable (Exposed path) :=
  inferInstanceAs (Decidable (∃ t ∈ patterns, _))

def rowOf (t : String) : Pattern × Row Operation :=
  ((Pattern.ofText (located t)).toOption.getD [], ⟨endpoints.filter (·.pattern = t)⟩)

/-- What the search relies on in a pattern: its text can be read, by words that are
parameters or plain texts, and it starts with a slash, takes no rest and does not end in
a slash. -/
structure Regular (t : String) (p : Pattern) : Prop where
  readable : Pattern.ofText (located t) = .ok p
  plain : Plain (segments (located t).toList)
  head : p.head? = some (.text '/')
  last : ¬ [.text '/'] <:+ p
  rest : .rest ∉ p

theorem parts_table : table.mount = servicePath ∧ table.rows = patterns.map rowOf := by
  decide +kernel

theorem mount_table : table.mount = servicePath := parts_table.1

theorem rows_table : table.rows = patterns.map rowOf := parts_table.2

-- One decision for all that is read off the seven texts: what takes time is their characters.
theorem texts_patterns :
    (∀ t ∈ patterns, Pattern.ofText (located t) = .ok (rowOf t).1 ∧
      (rowOf t).1.head? = some (.text '/') ∧ ¬ [.text '/'] <:+ (rowOf t).1 ∧ .rest ∉ (rowOf t).1) ∧
    (∀ t ∈ patterns,
      (∀ w ∈ segments (located t).toList,
        '/' ∉ w ∧ (w.head? = some ':' ∨ w.all (! isMark ·))) ∧
      ∀ w ∈ (segments (located t).toList).getLast?, w.head? ≠ some ':') ∧
    (∀ t ∈ patterns, (wordsOf t).take 3 = [[], "nudr-dr".toList, "v2".toList] ∧
      ((wordsOf t).drop 3).head? ∈ [some "subscription-data".toList, some "policy-data".toList]) ∧
    ∀ t ∈ patterns, ∀ t' ∈ patterns, Overlap (wordsOf t) (wordsOf t') → t = t' := by
  decide +kernel

theorem regular {t : String} (h : t ∈ patterns) : Regular t (rowOf t).1 := by
  obtain ⟨readable, head, last, rest⟩ := texts_patterns.1 t h
  obtain ⟨words, lastWord⟩ := texts_patterns.2.1 t h
  have hwords : ∀ w ∈ segments (located t).toList,
      '/' ∉ w ∧ (w.head? = some ':' ∨ ∀ c ∈ w, isMark c = false) := by
    simpa using words
  exact ⟨readable, ⟨hwords, lastWord⟩, head, last, rest⟩

theorem exists_of_mem_rows {p : Pattern} {row : Row Operation} (h : (p, row) ∈ table.rows) :
    ∃ t ∈ patterns, rowOf t = (p, row) := by
  rw [rows_table] at h
  exact List.mem_map.mp h

theorem eq_of_overlap {t t' : String} (ht : t ∈ patterns) (ht' : t' ∈ patterns)
    (h : Overlap (wordsOf t) (wordsOf t')) : t = t' :=
  texts_patterns.2.2.2 t ht t' ht' h

/-- No path names two resources. -/
theorem eq_of_matches {t t' path : String} (ht : t ∈ patterns) (ht' : t' ∈ patterns)
    (h : Matches t path) (h' : Matches t' path) : t = t' :=
  eq_of_overlap ht ht' (h.overlap h')

/-- **The table has a row for the paths of the resources, and for no other path.** -/
theorem row?_eq_some_iff {path : String} {row : Row Operation} :
    table.row? path = some row ↔ ∃ t ∈ patterns, Matches t path ∧ row = (rowOf t).2 := by
  have hfound : ∀ row, table.row? path = some row →
      ∃ t ∈ patterns, Matches t path ∧ row = (rowOf t).2 := by
    intro row h
    obtain ⟨p, hp, hs⟩ := Ways.find?_found h
    obtain ⟨t, ht, hrow⟩ := exists_of_mem_rows hp
    have hreg := regular ht
    rw [hrow] at hreg
    exact ⟨t, ht, (Pattern.stands_ofText hreg.readable hreg.plain).mp hs, by rw [hrow]⟩
  constructor
  · exact hfound row
  · rintro ⟨t, ht, hmatch, rfl⟩
    have hreg := regular ht
    have hsome : (table.row? path).isSome := by
      rw [Table.row?, Ways.isSome_find?_iff]
      · refine ⟨(rowOf t).1, (rowOf t).2, ?_, ?_⟩
        · rw [rows_table]
          exact List.mem_map_of_mem ht
        · exact (Pattern.stands_ofText hreg.readable hreg.plain).mpr hmatch
      all_goals
        intro p row h
        obtain ⟨t, ht, hrow⟩ := exists_of_mem_rows h
        have hreg := regular ht
        rw [hrow] at hreg
      · exact hreg.head
      · exact hreg.last
      · exact hreg.rest
    obtain ⟨row, hrow⟩ := Option.isSome_iff_exists.mp hsome
    obtain ⟨t', ht', hmatch', rfl⟩ := hfound row hrow
    rw [hrow, eq_of_matches ht ht' hmatch hmatch']

theorem isSome_row?_iff {path : String} : (table.row? path).isSome ↔ Exposed path := by
  rw [Option.isSome_iff_exists]
  constructor
  · rintro ⟨row, h⟩
    obtain ⟨t, ht, hmatch, -⟩ := row?_eq_some_iff.mp h
    exact ⟨t, ht, hmatch⟩
  · rintro ⟨t, ht, hmatch⟩
    exact ⟨_, row?_eq_some_iff.mpr ⟨t, ht, hmatch, rfl⟩⟩

/-! ## The operations of a resource -/

theorem method_of_mem_endpoints : ∀ r ∈ endpoints, r.method = r.handler.method := by decide

theorem method_of_given? {t : String} {m : Http.Method} {route : Route Operation}
    (h : (rowOf t).2.given? m = some route) : route.handler.method = m := by
  have hm : route.method = m := by simpa using List.find?_some h
  have hmem := List.mem_of_mem_filter (List.mem_of_find?_eq_some h)
  rw [← method_of_mem_endpoints route hmem, hm]

/-- A route serves the method of its operation, and what is queried by GET is queried by HEAD. -/
theorem method_of_route? {t : String} {m : Http.Method} {route : Route Operation}
    (h : (rowOf t).2.route? m = some route) :
    route.handler.method = m ∨ (m = .head ∧ route.handler = .query) := by
  have hmethod : ∀ op : Operation, op.method ≠ .head ∧ op.method ≠ .options ∧ op.method ≠ .connect :=
    fun op => by cases op <;> decide
  unfold Row.route? at h
  split at h
  · rcases Option.or_eq_some_iff.mp h with h | ⟨-, h⟩
    · exact absurd (method_of_given? h) (hmethod route.handler).1
    · refine .inr ⟨rfl, ?_⟩
      have hget := method_of_given? h
      generalize route.handler = op at hget
      cases op <;> first | rfl | cases hget
  · rcases Option.or_eq_some_iff.mp h with h | ⟨-, h⟩
    · exact absurd (method_of_given? h) (hmethod route.handler).2.1
    · exact absurd (method_of_given? h) (hmethod route.handler).2.2
  · cases h
  · exact .inl (method_of_given? h)

end DataRepository.Resource

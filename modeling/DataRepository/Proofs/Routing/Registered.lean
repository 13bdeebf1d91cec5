import DataRepository.Proofs.Routing.Segments
import DataRepository.Routing.Table
import Mathlib.Data.List.Induction
import Mathlib.Data.List.Nodup

/-! # The routes of a table

A table is built in three steps: routes are admitted, gathered by their pattern, and
gathered once more by what their pattern reads under the mount point. What a request
can meet in the end is said of the list of routes alone: a row belongs to the text of a
pattern, and its route for a method is the first one in the list with that text and
that method. -/
namespace DataRepository.Routing

open Http (Method)

variable {η : Type} {routes : List (Route η)} {mount text : String} {t : Table η} {r : Route η}

/-! ## Admission -/

theorem admitted_concat (routes : List (Route η)) (r : Route η) :
    admitted (routes ++ [r]) = admitted routes ++
      if r.method ∈ Method.standard ∧
        ¬ (admitted routes).any (fun k => k.method = r.method ∧ k.pattern = r.pattern) then [r]
      else [] := by
  simp only [admitted, List.foldl_append, List.foldl_cons, List.foldl_nil, List.any_reverse]
  split <;> simp

/-- What depends on method and pattern only is found first among the admitted routes where it is
found first among all of the standard. -/
theorem find?_admitted {q : Route η → Bool}
    (hq : ∀ a b, a.method = b.method → a.pattern = b.pattern → q a = q b) (routes : List (Route η)) :
    (admitted routes).find? q = routes.find? fun r => r.method ∈ Method.standard ∧ q r := by
  induction routes using List.reverseRecOn with
  | nil => rfl
  | append_singleton routes r ih =>
    rw [admitted_concat, List.find?_append, List.find?_append, ih]
    cases hfound : routes.find? fun r => r.method ∈ Method.standard ∧ q r with
    | some k => rfl
    | none =>
      rw [hfound, List.find?_eq_none] at ih
      split
      · rename_i hadmitted
        simp [hadmitted.1]
      · rename_i hleft
        rw [not_and_not_right] at hleft
        simp only [List.find?_nil, Option.or_none, Option.none_or]
        rw [List.find?_singleton, if_neg]
        simp only [decide_eq_true_eq, not_and]
        intro hstandard hr
        obtain ⟨k, hk, hsame⟩ := List.any_eq_true.mp (hleft hstandard)
        obtain ⟨hmethod, hpattern⟩ : k.method = r.method ∧ k.pattern = r.pattern := by
          simpa using hsame
        exact ih k hk ((hq k r hmethod hpattern).trans hr)

/-! ## Gathering -/

theorem mem_gathered {key : Route η → String} {rs : List (Route η)} {text : String} {row : Row η} :
    (text, row) ∈ gathered key rs ↔
      (∃ r ∈ rs, key r = text) ∧ row = ⟨rs.filter (key · = text)⟩ := by
  simp only [gathered, List.mem_map, List.mem_eraseDups, Prod.mk.injEq]
  constructor
  · rintro ⟨_, ⟨r, hr, rfl⟩, rfl, rfl⟩
    exact ⟨⟨r, hr, rfl⟩, rfl⟩
  · rintro ⟨⟨r, hr, rfl⟩, rfl⟩
    exact ⟨_, ⟨r, hr, rfl⟩, rfl, rfl⟩

theorem mem_flatMap_gathered {key : Route η → String} {rs : List (Route η)} :
    r ∈ (gathered key rs).flatMap (·.2.routes) ↔ r ∈ rs := by
  simp only [List.mem_flatMap, Prod.exists]
  constructor
  · rintro ⟨text, row, hrow, hr⟩
    obtain ⟨-, rfl⟩ := mem_gathered.mp hrow
    exact (List.mem_filter.mp hr).1
  · intro hr
    exact ⟨key r, _, mem_gathered.mpr ⟨⟨r, hr, rfl⟩, rfl⟩, List.mem_filter.mpr ⟨hr, by simp⟩⟩

/-- In a sound row, a route of a method is the only one. -/
theorem given?_eq_some_iff {row : Row η} (hsound : row.isSound = true) {m : Method} :
    row.given? m = some r ↔ r ∈ row.routes ∧ r.method = m := by
  constructor
  · intro h
    exact ⟨List.mem_of_find?_eq_some h, by simpa using List.find?_some h⟩
  · rintro ⟨hr, rfl⟩
    have hfound : (row.given? r.method).isSome := by
      rw [Row.given?, List.find?_isSome]
      exact ⟨r, hr, by simp⟩
    obtain ⟨k, hk⟩ := Option.isSome_iff_exists.mp hfound
    have hmem := List.mem_of_find?_eq_some hk
    have hmethod : k.method = r.method := by simpa using List.find?_some hk
    have hplaces : (row.routes.map fun r => Row.place r.method).Nodup := of_decide_eq_true hsound
    rw [hk, List.inj_on_of_nodup_map hplaces hmem hr (congrArg Row.place hmethod)]

/-! ## Patterns -/

theorem readPatterns_cons_iff {u : String} {us : List String} {ps : List Pattern} :
    readPatterns (u :: us) = .ok ps ↔
      ∃ p qs, Pattern.ofText u = .ok p ∧ readPatterns us = .ok qs ∧
        (∀ q ∈ qs, p.clashes q = false) ∧ ps = p :: qs := by
  constructor
  · intro h
    obtain ⟨p, hp, h⟩ := exists_of_bind_eq_ok h
    obtain ⟨qs, hqs, h⟩ := exists_of_bind_eq_ok h
    split at h
    · cases h
    · rename_i hclash
      cases h
      refine ⟨p, qs, hp, hqs, fun q hq => ?_, rfl⟩
      exact Bool.eq_false_iff.mpr fun hq' => hclash (List.any_eq_true.mpr ⟨q, hq, hq'⟩)
  · intro h
    obtain ⟨p, qs, hp, hqs, hclash, rfl⟩ := h
    have hnone : ¬ qs.any (p.clashes ·) = true := by simpa using hclash
    simp only [readPatterns, hp, hqs, bind, Except.bind, if_neg hnone]
    rfl

theorem mem_zip_readPatterns {rows : List (String × Row η)} {ps : List Pattern}
    (h : readPatterns (rows.map (·.1)) = .ok ps) {p : Pattern} {row : Row η} :
    (p, row) ∈ ps.zip (rows.map (·.2)) ↔
      ∃ text, (text, row) ∈ rows ∧ Pattern.ofText text = .ok p := by
  induction rows generalizing ps with
  | nil => simp
  | cons first rows ih =>
    obtain ⟨text, row'⟩ := first
    obtain ⟨p', qs, hp', hqs, -, rfl⟩ := readPatterns_cons_iff.mp h
    simp only [List.map_cons, List.zip_cons_cons, List.mem_cons, ih hqs, Prod.mk.injEq]
    constructor
    · rintro (⟨rfl, rfl⟩ | ⟨u, hu, hp⟩)
      · exact ⟨text, .inl ⟨rfl, rfl⟩, hp'⟩
      · exact ⟨u, .inr hu, hp⟩
    · rintro ⟨u, ⟨rfl, rfl⟩ | hu, hp⟩
      · rw [hp] at hp'
        cases hp'
        exact .inl ⟨rfl, rfl⟩
      · exact .inr ⟨u, hu, hp⟩

/-! ## Tables -/

/-- Where a table stands that is built at this mount point. -/
def mountPoint (mount : String) : String := if mount = "" then "/" else mount

/-- The first of the routes for this method whose pattern reads so under the mount point; none for a
method that is not of the standard. -/
def registered? (mount : String) (routes : List (Route η)) (text : String) (m : Method) :
    Option (Route η) :=
  routes.find? fun r =>
    r.method ∈ Method.standard ∧ r.method = m ∧ Pattern.mounted (mountPoint mount) r.pattern = text

/-- The admitted routes by what their pattern reads under the mount point. -/
def mountedRows (mount : String) (routes : List (Route η)) : List (String × Row η) :=
  gathered (fun r => Pattern.mounted (mountPoint mount) r.pattern)
    ((gathered (·.pattern) (admitted routes)).flatMap (·.2.routes))

theorem discard_eq_ok_iff {α : Type} {x : Except Refusal α} :
    discard x = .ok () ↔ ∃ a, x = .ok a := by
  cases x with
  | error why => exact iff_of_false nofun nofun
  | ok a => exact iff_of_true rfl ⟨a, rfl⟩

/-- What a table is built of: nothing, or patterns that are read, and rows in which no two routes take
one place. -/
theorem build_eq_ok_iff :
    Table.build mount routes = .ok t ↔
      (gathered (·.pattern) (admitted routes) = [] ∧ t = Table.empty (mountPoint mount)) ∨
      (gathered (·.pattern) (admitted routes) ≠ [] ∧
        (∃ ps, readPatterns ((gathered (·.pattern) (admitted routes)).map (·.1)) = .ok ps) ∧
        (mountPoint mount).toList.contains '*' = false ∧
        (∀ u row, (u, row) ∈ mountedRows mount routes → row.isSound = true) ∧
        ∃ ps, readPatterns ((mountedRows mount routes).map (·.1)) = .ok ps ∧
          t = ⟨mountPoint mount, ps.zip ((mountedRows mount routes).map (·.2))⟩) := by
  have hrows : (mountedRows mount routes).any (! ·.2.isSound) = true ↔
      ¬ ∀ u row, (u, row) ∈ mountedRows mount routes → row.isSound = true := by
    simp [List.any_eq_true]
  simp only [Table.build]
  rw [show (if mount = "" then "/" else mount) = mountPoint mount from rfl, ← mountedRows]
  constructor
  · intro h
    split at h
    · rename_i hempty
      cases h
      exact .inl ⟨List.isEmpty_iff.mp hempty, rfl⟩
    · rename_i hempty
      obtain ⟨_, hread, h⟩ := exists_of_bind_eq_ok h
      split at h
      · cases h
      · rename_i hstar
        split at h
        · cases h
        · rename_i hsound
          obtain ⟨ps, hps, h⟩ := exists_of_bind_eq_ok h
          cases h
          exact .inr ⟨mt List.isEmpty_iff.mpr hempty, discard_eq_ok_iff.mp hread,
            Bool.eq_false_iff.mpr hstar, not_not.mp (mt hrows.mpr hsound), ps, hps, rfl⟩
  · intro h
    obtain ⟨hempty, rfl⟩ | ⟨hempty, hread, hstar, hsound, ps, hps, rfl⟩ := h
    · rw [if_pos (List.isEmpty_iff.mpr hempty)]
      rfl
    · rw [if_neg (mt List.isEmpty_iff.mp hempty), discard_eq_ok_iff.mpr hread, hps,
        if_neg (Bool.eq_false_iff.mp hstar), if_neg (not_not_intro hsound ∘ hrows.mp)]
      rfl

theorem parts_of_build (h : Table.build mount routes = .ok t) :
    t.mount = mountPoint mount ∧ (∀ u row, (u, row) ∈ mountedRows mount routes → row.isSound = true) ∧
      ∀ p row, (p, row) ∈ t.rows ↔
        ∃ u, (u, row) ∈ mountedRows mount routes ∧ Pattern.ofText u = .ok p := by
  obtain ⟨hempty, rfl⟩ | ⟨-, -, -, hsound, ps, hps, rfl⟩ := build_eq_ok_iff.mp h
  · have hrowsNil : mountedRows mount routes = [] := by
      rw [mountedRows, hempty]
      rfl
    simp [hrowsNil, Table.empty]
  · exact ⟨rfl, hsound, fun p row => mem_zip_readPatterns hps⟩

theorem mem_mountedRows {u : String} {row : Row η} (h : (u, row) ∈ mountedRows mount routes) :
    r ∈ row.routes ↔ r ∈ admitted routes ∧ Pattern.mounted (mountPoint mount) r.pattern = u := by
  obtain ⟨-, rfl⟩ := mem_gathered.mp h
  rw [List.mem_filter, mem_flatMap_gathered, decide_eq_true_eq]

theorem registered?_eq (mount : String) (routes : List (Route η)) (u : String) (m : Method) :
    registered? mount routes u m = (admitted routes).find? fun r =>
      r.method = m ∧ Pattern.mounted (mountPoint mount) r.pattern = u := by
  rw [find?_admitted, registered?]
  · simp only [decide_eq_true_eq]
  · intro a b hmethod hpattern
    rw [hmethod, hpattern]

theorem given?_of_mountedRows {u : String} {row : Row η} (h : (u, row) ∈ mountedRows mount routes)
    (hsound : row.isSound = true) : row.given? = registered? mount routes u := by
  funext m
  rw [registered?_eq]
  cases hfound : (admitted routes).find? fun r =>
      r.method = m ∧ Pattern.mounted (mountPoint mount) r.pattern = u with
  | some r =>
    have hr := List.find?_some hfound
    rw [decide_eq_true_eq] at hr
    exact (given?_eq_some_iff hsound).mpr
      ⟨(mem_mountedRows h).mpr ⟨List.mem_of_find?_eq_some hfound, hr.2⟩, hr.1⟩
  | none =>
    rw [List.find?_eq_none] at hfound
    refine List.find?_eq_none.mpr fun k hk hmethod => ?_
    obtain ⟨hadmitted, hmounted⟩ := (mem_mountedRows h).mp hk
    rw [decide_eq_true_eq] at hmethod
    exact hfound k hadmitted (decide_eq_true ⟨hmethod, hmounted⟩)

/-- The text is that of a route of the standard. -/
def IsText (mount : String) (routes : List (Route η)) (u : String) : Prop :=
  ∃ r ∈ routes, r.method ∈ Method.standard ∧ Pattern.mounted (mountPoint mount) r.pattern = u

theorem isText_iff {u : String} :
    IsText mount routes u ↔ ∃ row, (u, row) ∈ mountedRows mount routes := by
  have hfind := find?_admitted (q := fun r => Pattern.mounted (mountPoint mount) r.pattern = u)
    (fun a b _ hpattern => by rw [hpattern]) routes
  have hsome := congrArg Option.isSome hfind
  rw [Bool.eq_iff_iff, List.find?_isSome, List.find?_isSome] at hsome
  simp only [decide_eq_true_eq] at hsome
  simp only [mountedRows, mem_gathered, mem_flatMap_gathered, exists_and_left, exists_eq, and_true]
  exact hsome.symm

/-! ## Rows -/

/-- The text of a pattern that stands for the path. -/
structure Names (mount : String) (routes : List (Route η)) (u path : String) : Prop where
  isText : IsText mount routes u
  stands : ∃ p, Pattern.ofText u = .ok p ∧ p.Stands path.toList

/-- The route that serves a method among those whose pattern reads so: what serves GET serves HEAD
unless there is a route for it, a CONNECT route serves OPTIONS where there is no route for that, and
nothing serves CONNECT. -/
def selected? (mount : String) (routes : List (Route η)) (u : String) (m : Method) :
    Option (Route η) :=
  match m with
  | .head => (registered? mount routes u .head).or (registered? mount routes u .get)
  | .options => (registered? mount routes u .options).or (registered? mount routes u .connect)
  | .connect => none
  | m => registered? mount routes u m

/-- **A row that is found belongs to a pattern that stands for the path**, with the routes of that
pattern. -/
theorem exists_names_of_row? {path : String} {row : Row η} (h : Table.build mount routes = .ok t)
    (hrow : t.row? path = some row) :
    ∃ u, Names mount routes u path ∧ ∀ m, row.route? m = selected? mount routes u m := by
  obtain ⟨-, hsound, hrows⟩ := parts_of_build h
  obtain ⟨p, hp, hstands⟩ := Ways.find?_found hrow
  obtain ⟨u, hu, hread⟩ := (hrows p row).mp hp
  refine ⟨u, ⟨isText_iff.mpr ⟨row, hu⟩, p, hread, hstands⟩, fun m => ?_⟩
  have hgiven := given?_of_mountedRows hu (hsound u row hu)
  cases m <;> simp only [Row.route?, selected?, hgiven]

/-- **A path that a pattern stands for is found**, unless it ends in a slash or lacks the one that a
pattern ends in. -/
theorem isSome_row?_of_names {u path : String} (h : Table.build mount routes = .ok t)
    (hpath : ¬ ['/'] <:+ path.toList)
    (hlacks : ∀ u, Names mount routes u (path ++ "/") → ¬ ['/'] <:+ u.toList)
    (hnames : Names mount routes u path) : (t.row? path).isSome := by
  obtain ⟨-, -, hrows⟩ := parts_of_build h
  obtain ⟨htext, p, hread, hstands⟩ := hnames
  obtain ⟨row, hu⟩ := isText_iff.mp htext
  refine Ways.isSome_find?_of_stands hpath (fun q row hq hslash hs => ?_)
    (Pattern.head?_of_ofText hread) ((hrows p row).mpr ⟨u, hu, hread⟩) hstands
  obtain ⟨v, hv, hread'⟩ := (hrows q row).mp hq
  have hnames : Names mount routes v (path ++ "/") :=
    ⟨isText_iff.mpr ⟨row, hv⟩, q, hread', by simpa using hs⟩
  exact hlacks v hnames (Pattern.slash_of_ofText hread' hslash)

end DataRepository.Routing

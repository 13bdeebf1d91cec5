import DataRepository.Proofs.Routing.Registered
import Mathlib.Data.List.Pairwise

/-! # Which routes make a table

Whether a list of routes makes a table depends on the set of those that are admitted: their patterns
have to be read, and no two that differ may clash, both as they stand and as they read under the mount
point; and no two routes may take one place in a row (`exists_build_iff`). So neither the order of the
routes nor what is left out of them counts. -/
namespace DataRepository.Routing

open Http (Method)

variable {η : Type} {routes rs rs' : List (Route η)} {mount : String} {r k : Route η}

/-! ## First of its pair -/

/-- What tells a route from others in a list: its method and its pattern. -/
def Route.pair (r : Route η) : Method × String := (r.method, r.pattern)

theorem pair_eq_iff : r.pair = k.pair ↔ r.method = k.method ∧ r.pattern = k.pattern := by
  rw [Route.pair, Route.pair, Prod.mk.injEq]

/-- No two routes that are admitted have the same method and pattern. -/
theorem nodup_pair_admitted (routes : List (Route η)) : ((admitted routes).map Route.pair).Nodup := by
  induction routes using List.reverseRecOn with
  | nil => exact List.nodup_nil
  | append_singleton routes r ih =>
    rw [admitted_concat]
    split
    · rename_i hadmitted
      have hfresh : r.pair ∉ (admitted routes).map Route.pair := by
        intro hmem
        obtain ⟨k, hk, hpair⟩ := List.mem_map.mp hmem
        exact hadmitted.2 (List.any_eq_true.mpr ⟨k, hk, decide_eq_true (pair_eq_iff.mp hpair)⟩)
      rw [List.map_append, List.map_singleton]
      exact List.nodup_append.mpr ⟨ih, List.nodup_singleton _, by simpa using hfresh⟩
    · rwa [List.append_nil]

theorem find?_pair_eq_some_iff (h : (rs.map Route.pair).Nodup) :
    rs.find? (·.pair = k.pair) = some k ↔ k ∈ rs := by
  constructor
  · exact List.mem_of_find?_eq_some
  · intro hk
    have hsome : (rs.find? (·.pair = k.pair)).isSome := List.find?_isSome.mpr ⟨k, hk, by simp⟩
    obtain ⟨k', hk'⟩ := Option.isSome_iff_exists.mp hsome
    have hpair : k'.pair = k.pair := by simpa using List.find?_some hk'
    rw [hk', List.inj_on_of_nodup_map h (List.mem_of_find?_eq_some hk') hk hpair]

/-- **The routes that are admitted are the first of their method and pattern**, of the methods of the
standard. -/
theorem mem_admitted_iff :
    k ∈ admitted routes ↔ k.method ∈ Method.standard ∧ routes.find? (·.pair = k.pair) = some k := by
  have hfind := find?_admitted (q := fun r => r.pair = k.pair)
    (fun a b hmethod hpattern => by rw [pair_eq_iff.mpr ⟨hmethod, hpattern⟩]) routes
  rw [← find?_pair_eq_some_iff (nodup_pair_admitted routes), hfind]
  by_cases hk : k.method ∈ Method.standard
  · rw [and_iff_right hk]
    refine Eq.congr (congrArg (List.find? · routes) (funext fun r => ?_)) rfl
    simp only [decide_eq_true_eq]
    rw [decide_eq_decide, and_iff_right_iff_imp]
    intro hpair
    rwa [(pair_eq_iff.mp hpair).1]
  · refine iff_of_false (fun hfound => hk ?_) (fun h => hk h.1)
    have hfound := List.find?_some hfound
    simp only [decide_eq_true_eq] at hfound
    exact hfound.1

/-! ## Reading patterns -/

/-- The two texts are not patterns that clash. -/
def Separate (u v : String) : Prop :=
  ∀ p q, Pattern.ofText u = .ok p → Pattern.ofText v = .ok q → p.clashes q = false

instance : Std.Symm Separate where
  symm _ _ h p q hp hq := Pattern.clashes_comm p q ▸ h q p hq hp

theorem clashes_self (p : Pattern) : p.clashes p = true := by
  induction p with
  | nil => rfl
  | cons piece p ih => cases piece <;> simp [Pattern.clashes, ih]

/-- Texts that are read alike are one text where they are kept apart. -/
theorem eq_of_separate {u v : String} {p : Pattern} (h : u ≠ v → Separate u v)
    (hu : Pattern.ofText u = .ok p) (hv : Pattern.ofText v = .ok p) : u = v := by
  by_contra hne
  have hclash := h hne p p hu hv
  rw [clashes_self] at hclash
  cases hclash

theorem mem_readPatterns {us : List String} {ps : List Pattern} (h : readPatterns us = .ok ps)
    {p : Pattern} : p ∈ ps ↔ ∃ u ∈ us, Pattern.ofText u = .ok p := by
  induction us generalizing ps with
  | nil =>
    cases h
    simp
  | cons u us ih =>
    obtain ⟨p', qs, hp', hqs, -, rfl⟩ := readPatterns_cons_iff.mp h
    simp only [List.mem_cons, ih hqs, exists_eq_or_imp, hp', Except.ok.injEq, @eq_comm _ p p']

/-- Texts are read if each of them can be, and no two clash. -/
theorem exists_readPatterns_iff {us : List String} :
    (∃ ps, readPatterns us = .ok ps) ↔
      (∀ u ∈ us, ∃ p, Pattern.ofText u = .ok p) ∧ us.Pairwise Separate := by
  induction us with
  | nil => exact iff_of_true ⟨[], rfl⟩ ⟨by simp, .nil⟩
  | cons u us ih =>
    rw [List.forall_mem_cons, List.pairwise_cons]
    constructor
    · intro h
      obtain ⟨ps, h⟩ := h
      obtain ⟨p, qs, hp, hqs, hclash, -⟩ := readPatterns_cons_iff.mp h
      obtain ⟨hread, hapart⟩ := ih.mp ⟨qs, hqs⟩
      refine ⟨⟨⟨p, hp⟩, hread⟩, fun v hv p' q hp' hq => ?_, hapart⟩
      rw [hp] at hp'
      cases hp'
      exact hclash q ((mem_readPatterns hqs).mpr ⟨v, hv, hq⟩)
    · intro h
      obtain ⟨⟨⟨p, hp⟩, hread⟩, hfirst, hapart⟩ := h
      obtain ⟨qs, hqs⟩ := ih.mpr ⟨hread, hapart⟩
      refine ⟨p :: qs, readPatterns_cons_iff.mpr ⟨p, qs, hp, hqs, fun q hq => ?_, rfl⟩⟩
      obtain ⟨v, hv, hq⟩ := (mem_readPatterns hqs).mp hq
      exact hfirst v hv p q hp hq

/-! ## Gathering -/

theorem nodup_eraseDups {α : Type} [DecidableEq α] (l : List α) : l.eraseDups.Nodup := by
  induction hn : l.length using Nat.strongRecOn generalizing l with
  | _ n ih =>
    cases l with
    | nil => exact List.nodup_nil
    | cons a l =>
      rw [List.eraseDups_cons, List.nodup_cons]
      constructor
      · simp
      · refine ih _ ?_ (l.filter _) rfl
        rw [← hn]
        exact Nat.lt_succ_of_le (List.length_filter_le _ _)

variable {key : Route η → String}

theorem nodup_gathered (key : Route η → String) (rs : List (Route η)) :
    ((gathered key rs).map (·.1)).Nodup := by
  rw [gathered, List.map_map]
  have hid : (fun row : String × Row η => row.1) ∘ (fun t => (t, ⟨rs.filter (key · = t)⟩)) = id := rfl
  rw [hid, List.map_id]
  exact nodup_eraseDups _

theorem mem_map_gathered {u : String} : u ∈ (gathered key rs).map (·.1) ↔ ∃ r ∈ rs, key r = u := by
  simp only [List.mem_map, Prod.exists, exists_and_right, exists_eq_right, mem_gathered]

theorem nodup_flatMap_gathered (h : rs.Nodup) :
    ((gathered key rs).flatMap (·.2.routes)).Nodup := by
  have hkeys : (gathered key rs).Pairwise fun a b => a.1 ≠ b.1 :=
    List.pairwise_map.mp (nodup_gathered key rs)
  refine List.nodup_flatMap.mpr ⟨fun (u, row) hrow => ?_, hkeys.imp_of_mem ?_⟩
  · obtain ⟨-, rfl⟩ := mem_gathered.mp hrow
    exact h.filter _
  · intro (u, row) (u', row') hrow hrow' hne r hr hr'
    obtain ⟨-, rfl⟩ := mem_gathered.mp hrow
    obtain ⟨-, rfl⟩ := mem_gathered.mp hrow'
    have hu := (List.mem_filter.mp hr).2
    have hu' := (List.mem_filter.mp hr').2
    rw [decide_eq_true_eq] at hu hu'
    exact hne (hu.symm.trans hu')

/-- The texts of routes are read if each can be, and no two that differ clash. -/
theorem exists_readPatterns_gathered_iff :
    (∃ ps, readPatterns ((gathered key rs).map (·.1)) = .ok ps) ↔
      (∀ r ∈ rs, ∃ p, Pattern.ofText (key r) = .ok p) ∧
        ∀ r ∈ rs, ∀ k ∈ rs, key r ≠ key k → Separate (key r) (key k) := by
  rw [exists_readPatterns_iff]
  constructor
  · intro h
    obtain ⟨hread, hapart⟩ := h
    have hmem : ∀ r ∈ rs, key r ∈ (gathered key rs).map (·.1) := fun r hr =>
      mem_map_gathered.mpr ⟨r, hr, rfl⟩
    exact ⟨fun r hr => hread _ (hmem r hr), fun r hr k hk hne => hapart.forall (hmem r hr) (hmem k hk) hne⟩
  · intro h
    obtain ⟨hread, hapart⟩ := h
    refine ⟨fun u hu => ?_, (nodup_gathered key rs).pairwise_of_forall_ne fun u hu v hv hne => ?_⟩
    · obtain ⟨r, hr, rfl⟩ := mem_map_gathered.mp hu
      exact hread r hr
    · obtain ⟨r, hr, rfl⟩ := mem_map_gathered.mp hu
      obtain ⟨k, hk, rfl⟩ := mem_map_gathered.mp hv
      exact hapart r hr k hk hne

/-! ## Rows -/

theorem nodup_admitted (routes : List (Route η)) : (admitted routes).Nodup :=
  (nodup_pair_admitted routes).of_map _

theorem nodup_of_mem_mountedRows {u : String} {row : Row η}
    (h : (u, row) ∈ mountedRows mount routes) : row.routes.Nodup := by
  obtain ⟨-, rfl⟩ := mem_gathered.mp h
  exact (nodup_flatMap_gathered (nodup_admitted routes)).filter _

/-- In every row no two routes take one place, if no two routes do whose patterns read the same. -/
theorem forall_isSound_iff :
    (∀ u row, (u, row) ∈ mountedRows mount routes → row.isSound = true) ↔
      ∀ r ∈ admitted routes, ∀ k ∈ admitted routes,
        Pattern.mounted (mountPoint mount) r.pattern = Pattern.mounted (mountPoint mount) k.pattern →
        Row.place r.method = Row.place k.method → r = k := by
  have hsound : ∀ u row, (u, row) ∈ mountedRows mount routes → (row.isSound = true ↔
      ∀ r ∈ row.routes, ∀ k ∈ row.routes, Row.place r.method = Row.place k.method → r = k) := by
    intro u row hrow
    rw [Row.isSound, decide_eq_true_eq]
    exact List.nodup_map_iff_inj_on (nodup_of_mem_mountedRows hrow)
  constructor
  · intro h r hr k hk hmounted hplace
    obtain ⟨row, hrow⟩ : ∃ row, (Pattern.mounted (mountPoint mount) r.pattern, row) ∈
        mountedRows mount routes := by
      refine ⟨_, mem_gathered.mpr ⟨⟨r, mem_flatMap_gathered.mpr hr, rfl⟩, rfl⟩⟩
    exact (hsound _ row hrow).mp (h _ row hrow) r ((mem_mountedRows hrow).mpr ⟨hr, rfl⟩) k
      ((mem_mountedRows hrow).mpr ⟨hk, hmounted.symm⟩) hplace
  · intro h u row hrow
    refine (hsound u row hrow).mpr fun r hr k hk hplace => ?_
    obtain ⟨hr, hmounted⟩ := (mem_mountedRows hrow).mp hr
    obtain ⟨hk, hmounted'⟩ := (mem_mountedRows hrow).mp hk
    exact h r hr k hk (hmounted.trans hmounted'.symm) hplace

/-! ## Tables -/

/-- What the routes of a table have to be. -/
structure Fits (mount : String) (rs : List (Route η)) : Prop where
  readable : ∀ r ∈ rs, ∃ p, Pattern.ofText r.pattern = .ok p
  apart : ∀ r ∈ rs, ∀ k ∈ rs, r.pattern ≠ k.pattern → Separate r.pattern k.pattern
  unstarred : (mountPoint mount).toList.contains '*' = false
  unshared : ∀ r ∈ rs, ∀ k ∈ rs,
    Pattern.mounted (mountPoint mount) r.pattern = Pattern.mounted (mountPoint mount) k.pattern →
    Row.place r.method = Row.place k.method → r = k
  mountable : ∀ r ∈ rs, ∃ p, Pattern.ofText (Pattern.mounted (mountPoint mount) r.pattern) = .ok p
  mountedApart : ∀ r ∈ rs, ∀ k ∈ rs,
    Pattern.mounted (mountPoint mount) r.pattern ≠ Pattern.mounted (mountPoint mount) k.pattern →
    Separate (Pattern.mounted (mountPoint mount) r.pattern) (Pattern.mounted (mountPoint mount) k.pattern)

theorem Fits.subset (h : Fits mount rs) (hsub : rs' ⊆ rs) : Fits mount rs' where
  readable r hr := h.readable r (hsub hr)
  apart r hr k hk := h.apart r (hsub hr) k (hsub hk)
  unstarred := h.unstarred
  unshared r hr k hk := h.unshared r (hsub hr) k (hsub hk)
  mountable r hr := h.mountable r (hsub hr)
  mountedApart r hr k hk := h.mountedApart r (hsub hr) k (hsub hk)

theorem gathered_eq_nil_iff : gathered key rs = [] ↔ rs = [] := by
  constructor
  · intro h
    refine List.eq_nil_iff_forall_not_mem.mpr fun r hr => ?_
    have hmem := mem_map_gathered.mpr ⟨r, hr, (rfl : key r = key r)⟩
    rw [h] at hmem
    cases hmem
  · rintro rfl
    rfl

theorem exists_readPatterns_mountedRows_iff :
    (∃ ps, readPatterns ((mountedRows mount routes).map (·.1)) = .ok ps) ↔
      (∀ r ∈ admitted routes,
        ∃ p, Pattern.ofText (Pattern.mounted (mountPoint mount) r.pattern) = .ok p) ∧
      ∀ r ∈ admitted routes, ∀ k ∈ admitted routes,
        Pattern.mounted (mountPoint mount) r.pattern ≠ Pattern.mounted (mountPoint mount) k.pattern →
        Separate (Pattern.mounted (mountPoint mount) r.pattern)
          (Pattern.mounted (mountPoint mount) k.pattern) := by
  rw [mountedRows, exists_readPatterns_gathered_iff]
  simp only [mem_flatMap_gathered]

/-- **A list of routes makes a table if those that are admitted fit together, or if there are none.** -/
theorem exists_build_iff :
    (∃ t, Table.build mount routes = .ok t) ↔ admitted routes = [] ∨ Fits mount (admitted routes) := by
  constructor
  · intro h
    obtain ⟨t, h⟩ := h
    obtain ⟨hempty, -⟩ | ⟨-, hread, hstar, hsound, ps, hps, -⟩ := build_eq_ok_iff.mp h
    · exact .inl (gathered_eq_nil_iff.mp hempty)
    · obtain ⟨readable, apart⟩ := exists_readPatterns_gathered_iff.mp hread
      obtain ⟨mountable, mountedApart⟩ := exists_readPatterns_mountedRows_iff.mp ⟨ps, hps⟩
      exact .inr ⟨readable, apart, hstar, forall_isSound_iff.mp hsound, mountable, mountedApart⟩
  · intro h
    by_cases hempty : admitted routes = []
    · exact ⟨_, build_eq_ok_iff.mpr (.inl ⟨gathered_eq_nil_iff.mpr hempty, rfl⟩)⟩
    · have hfits := h.resolve_left hempty
      obtain ⟨ps, hps⟩ :=
        exists_readPatterns_mountedRows_iff.mpr ⟨hfits.mountable, hfits.mountedApart⟩
      exact ⟨_, build_eq_ok_iff.mpr (.inr ⟨mt gathered_eq_nil_iff.mp hempty,
        exists_readPatterns_gathered_iff.mpr ⟨hfits.readable, hfits.apart⟩, hfits.unstarred,
        forall_isSound_iff.mpr hfits.unshared, ps, hps, rfl⟩)⟩

theorem isText_iff_mem_admitted {u : String} :
    IsText mount routes u ↔
      ∃ r ∈ admitted routes, Pattern.mounted (mountPoint mount) r.pattern = u := by
  simp only [isText_iff, mountedRows, mem_gathered, exists_and_left, exists_eq, and_true,
    mem_flatMap_gathered]

/-- Texts of rows that are read alike are one text. -/
theorem eq_of_isText {t : Table η} {u v : String} {p : Pattern} (h : Table.build mount routes = .ok t)
    (hu : IsText mount routes u) (hv : IsText mount routes v) (hp : Pattern.ofText u = .ok p)
    (hq : Pattern.ofText v = .ok p) : u = v := by
  obtain ⟨r, hr, rfl⟩ := isText_iff_mem_admitted.mp hu
  obtain ⟨k, hk, rfl⟩ := isText_iff_mem_admitted.mp hv
  obtain hempty | hfits := exists_build_iff.mp ⟨t, h⟩
  · rw [hempty] at hr
    cases hr
  · exact eq_of_separate (hfits.mountedApart r hr k hk) hp hq

end DataRepository.Routing

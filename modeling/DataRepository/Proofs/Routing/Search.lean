import DataRepository.Routing.Search

/-! # What a search finds

A search reads a path along all patterns at once and does not always turn back.
`Stands` says of one pattern alone which paths it stands for. What a search finds
stands for the path (`follow_found`), and where the path neither ends in a slash nor
lacks one that a pattern ends in (`Unslashed`), it finds a pattern if there is one
(`exists_follow_found`). -/
namespace DataRepository.Routing

variable {ρ : Type}

/-- Whether the pattern stands for the path: a parameter for all that is left of
a segment, which may be empty where the path goes on, and a rest for a path that
is not empty.  After a parameter the pattern ends or goes on with a slash. -/
def Pattern.Stands : Pattern → List Char → Prop
  | [], path => path = []
  | .text c :: p, path => ∃ rest, path = c :: rest ∧ Stands p rest
  | .parameter :: p, path =>
    path ≠ [] ∧ (p = [] ∨ p.head? = some (.text '/')) ∧ Stands p (path.dropWhile (· ≠ '/'))
  | .rest :: p, path => path ≠ [] ∧ p = []

open Pattern (Stands)

theorem stands_append {text : List Char} {p : Pattern} {path : List Char} :
    Stands (text.map .text ++ p) path ↔ ∃ rest, path = text ++ rest ∧ Stands p rest := by
  induction text generalizing path with
  | nil => simp
  | cons c text ih =>
    simp only [List.map_cons, List.cons_append, Stands, ih]
    constructor
    · rintro ⟨_, rfl, rest, rfl, h⟩; exact ⟨rest, rfl, h⟩
    · rintro ⟨rest, rfl, h⟩; exact ⟨_, rfl, rest, rfl, h⟩

theorem suffix_dropWhile {path : List Char} (h : ['/'] <:+ path) :
    ['/'] <:+ path.dropWhile (· ≠ '/') := by
  obtain ⟨front, rfl⟩ := h
  rw [List.dropWhile_append]
  split
  · simp
  · exact List.suffix_append _ _

theorem stands_nil {p : Pattern} : Stands p [] ↔ p = [] := by
  cases p with
  | nil => simp [Stands]
  | cons piece p => cases piece <;> simp [Stands]

theorem stands_cons {p : Pattern} {c : Char} {path : List Char} :
    Stands p (c :: path) ↔ (∃ q, p = .text c :: q ∧ Stands q path) ∨
      (∃ q, p = .parameter :: q ∧ (q = [] ∨ q.head? = some (.text '/')) ∧
        Stands q ((c :: path).dropWhile (· ≠ '/'))) ∨ p = [.rest] := by
  cases p with
  | nil => simp [Stands]
  | cons piece p => cases piece <;> simp [Stands, and_assoc, @eq_comm _ c]

/-- Only a pattern that ends in a slash or takes a rest stands for a path that ends in a slash. -/
theorem suffix_of_stands {p : Pattern} {path : List Char} (h : Stands p path)
    (hpath : ['/'] <:+ path) : [.text '/'] <:+ p ∨ .rest ∈ p := by
  induction p generalizing path with
  | nil => cases h; simp at hpath
  | cons piece p ih =>
    cases piece with
    | text c =>
      obtain ⟨rest, rfl, h⟩ := h
      rcases List.suffix_cons_iff.mp hpath with hpath | hpath
      · obtain ⟨rfl, rfl⟩ := List.cons.inj hpath
        obtain rfl := stands_nil.mp h
        exact .inl List.suffix_rfl
      · rcases ih h hpath with ih | ih
        · exact .inl (ih.trans (List.suffix_cons _ _))
        · exact .inr (List.mem_cons_of_mem _ ih)
    | parameter =>
      obtain ⟨-, -, h⟩ := h
      rcases ih h (suffix_dropWhile hpath) with ih | ih
      · exact .inl (ih.trans (List.suffix_cons _ _))
      · exact .inr (List.mem_cons_of_mem _ ih)
    | rest => exact .inr List.mem_cons_self

theorem eq_slash_of_dropWhile {cs rest : List Char} {c : Char}
    (h : cs.dropWhile (· ≠ '/') = c :: rest) : c = '/' := by
  have hhead := List.head?_dropWhile_not (· ≠ '/') cs
  rw [h] at hhead
  simpa using hhead

/-! ## Parts of ways -/

theorem map_commonText_pieces (cs : List Char) (p : Pattern) :
    (commonText cs p).map Piece.text <+: p := by
  fun_induction commonText cs p with
  | case1 c cs p ih => simpa using ih
  | case2 => exact List.nil_prefix
  | case3 => exact List.nil_prefix

theorem map_leadingText_pieces (p : Pattern) : (leadingText p).map Piece.text <+: p := by
  fun_induction leadingText p with
  | case1 c p ih => simpa using ih
  | case2 => exact List.nil_prefix

theorem foldl_commonText_pieces (ways : Ways ρ) (cs : List Char) :
    ways.foldl (fun cs way => commonText cs way.1) cs <+: cs ∧
      ∀ way ∈ ways, (ways.foldl (fun cs way => commonText cs way.1) cs).map Piece.text <+: way.1 := by
  induction ways generalizing cs with
  | nil => simp
  | cons way ways ih =>
    obtain ⟨hcs, hall⟩ := ih (commonText cs way.1)
    refine ⟨hcs.trans <| commonText_prefix cs way.1, fun w hw => ?_⟩
    rcases List.mem_cons.mp hw with rfl | hw
    · exact (hcs.map _).trans (map_commonText_pieces cs w.1)
    · exact hall w hw

namespace Ways

variable {ways named : Ways ρ} {p : Pattern} {r : ρ} {piece : Piece}

theorem map_start_prefix (h : (p, r) ∈ ways) : ways.start.map Piece.text <+: p := by
  cases ways with
  | nil => cases h
  | cons way ways =>
    obtain ⟨hcs, hall⟩ := foldl_commonText_pieces ways (leadingText way.1)
    rcases List.mem_cons.mp h with rfl | h
    · exact (hcs.map _).trans (map_leadingText_pieces p)
    · exact hall (p, r) h

/-- What is left of the ways after the text that they share. -/
theorem mem_drop_start :
    (p, r) ∈ ways.drop ways.start.length ↔ (ways.start.map Piece.text ++ p, r) ∈ ways := by
  simp only [drop, List.mem_map, Prod.mk.injEq, Prod.exists]
  constructor
  · rintro ⟨q, r', hq, rfl, rfl⟩
    obtain ⟨s, rfl⟩ := map_start_prefix hq
    simpa using hq
  · intro h
    exact ⟨_, r, h, List.drop_left' (by simp), rfl⟩

theorem exists_mem_drop_start {path : List Char} (h : (p, r) ∈ ways) (hs : Stands p path) :
    ∃ q rest, (q, r) ∈ ways.drop ways.start.length ∧ path = ways.start ++ rest ∧
      Stands q rest := by
  obtain ⟨q, rfl⟩ := map_start_prefix h
  obtain ⟨rest, hpath, hs⟩ := stands_append.mp hs
  exact ⟨q, rest, mem_drop_start.mpr h, hpath, hs⟩

theorem mem_after : (p, r) ∈ ways.after piece ↔ (piece :: p, r) ∈ ways := by
  simp only [after, List.mem_filterMap, Prod.exists]
  constructor
  · rintro ⟨q, r', hq, h⟩
    split at h
    · rename_i hhead
      simp only [Option.some.injEq, Prod.mk.injEq] at h
      obtain ⟨rfl, rfl⟩ := h
      obtain ⟨q', rfl⟩ := List.head?_eq_some_iff.mp hhead
      exact hq
    · cases h
  · intro h
    exact ⟨_, r, h, by simp⟩

theorem mem_of_here? (h : ways.here? = some r) : ([], r) ∈ ways := by
  simp only [here?, Option.map_eq_some_iff] at h
  obtain ⟨⟨q, r'⟩, hf, rfl⟩ := h
  have hq : q = [] := by simpa using List.find?_some hf
  exact hq ▸ List.mem_of_find?_eq_some hf

theorem exists_here? (h : ([], r) ∈ ways) : ∃ r', ways.here? = some r' := by
  cases hh : ways.here? with
  | some r' => exact ⟨r', rfl⟩
  | none =>
    simp only [here?, Option.map_eq_none_iff, List.find?_eq_none] at hh
    exact absurd rfl (hh _ h)

theorem isEmpty_of_mem (h : (p, r) ∈ ways) : List.isEmpty ways = false := by
  cases ways with
  | nil => cases h
  | cons => rfl

theorem eq_append_of_drop {text path rest : List Char} (hpre : text <+: path)
    (hdrop : path.drop text.length = rest) : path = text ++ rest := by
  obtain ⟨rest', rfl⟩ := hpre
  rw [← hdrop, List.drop_left]

theorem failing_ne_found (left : List Char) (r : ρ) : failing left ≠ .found r := by
  unfold failing; split <;> simp

theorem failing_ne_stopped {left : List Char} (h : ¬ ['/'] <:+ left) :
    (failing left : Outcome ρ) ≠ .stopped := by
  have hne : left ≠ ['/'] := fun he => h (he ▸ List.suffix_refl ['/'])
  simp [failing, hne]

theorem orElse_eq_found {first : Outcome ρ} {second : Unit → Outcome ρ} :
    first.orElse second = .found r ↔ first = .found r ∨ (first = .missed ∧ second () = .found r) := by
  cases first <;> simp [Outcome.orElse]

theorem orElse_eq_stopped {first : Outcome ρ} {second : Unit → Outcome ρ} :
    first.orElse second = .stopped ↔
      first = .stopped ∨ (first = .missed ∧ second () = .stopped) := by
  cases first <;> simp [Outcome.orElse]

/-! ## The search -/

/-- **What a search finds stands for the path.** -/
theorem follow_found {c : Char} {path : List Char} (h : follow c ways path = .found r) :
    ∃ p, (p, r) ∈ ways ∧ Stands p path := by
  fun_induction follow c ways path with
  | case1 c ways path text left hpre hdrop r' hhere =>
    obtain ⟨rest, rfl⟩ := hpre
    simp only [List.drop_left] at hdrop
    cases h
    refine ⟨_, mem_drop_start.mp (mem_of_here? hhere), stands_append.mpr ⟨rest, rfl, hdrop⟩⟩
  | case2 => exact absurd h (failing_ne_found _ _)
  | case3 => exact absurd h (failing_ne_found _ _)
  | case4 c ways path text left hpre d rest hdrop hlt named params rests hne ihNamed ihBelow =>
    have hpath : path = text ++ d :: rest := by
      obtain ⟨rest', rfl⟩ := hpre
      simpa [text] using hdrop
    suffices hleft : ∃ p, (p, r) ∈ left ∧ Stands p (d :: rest) by
      obtain ⟨p, hp, hs⟩ := hleft
      exact ⟨_, mem_drop_start.mp hp, stands_append.mpr ⟨_, hpath, hs⟩⟩
    rcases orElse_eq_found.mp h with h | ⟨-, h⟩
    · split at h
      · cases h
      · obtain ⟨p, hp, hs⟩ := ihNamed h
        exact ⟨_, mem_after.mp hp, _, rfl, hs⟩
    · split at h
      · rename_i r' hrests
        cases h
        exact ⟨_, mem_after.mp (mem_of_here? hrests), by simp [Stands]⟩
      · split at h
        · cases h
        · split at h
          · rename_i hrun
            split at h
            · rename_i r' hhere
              cases h
              exact ⟨_, mem_after.mp (mem_of_here? hhere), by simp, .inl rfl, hrun⟩
            · dsimp only at h
              split at h <;> cases h
          · rename_i slash rest' hrun
            dsimp only at h
            split at h
            · exact absurd h (failing_ne_found _ _)
            · obtain rfl := eq_slash_of_dropWhile hrun
              obtain ⟨p, hp, hs⟩ := ihBelow _ _ hrun h
              refine ⟨_, mem_after.mp (mem_after.mp hp), by simp, .inr rfl, ?_⟩
              rw [hrun]
              exact ⟨_, rfl, hs⟩
  | case5 => cases h
  | case6 => exact absurd h (failing_ne_found _ _)

/-! ## Searches that are not given up -/

/-- Whether no pattern that ends in a slash stands for the path with one more slash. -/
def Unslashed (path : List Char) (ways : Ways ρ) : Prop :=
  ∀ p r, (p, r) ∈ ways → [.text '/'] <:+ p → ¬ Stands p (path ++ ['/'])

theorem Unslashed.drop {path rest : List Char} (h : Unslashed path ways)
    (hpath : path = ways.start ++ rest) : Unslashed rest (ways.drop ways.start.length) := by
  intro p r hp hslash hs
  refine h _ r (mem_drop_start.mp hp) (hslash.trans (List.suffix_append _ _)) ?_
  exact stands_append.mpr ⟨_, by rw [hpath, List.append_assoc], hs⟩

theorem Unslashed.after {d : Char} {rest : List Char} (h : Unslashed (d :: rest) ways) :
    Unslashed rest (ways.after (.text d)) := by
  intro p r hp hslash hs
  exact h _ r (mem_after.mp hp) (hslash.trans (List.suffix_cons _ _)) ⟨_, rfl, hs⟩

theorem dropWhile_concat_slash (cs : List Char) :
    (cs ++ ['/']).dropWhile (· ≠ '/') = cs.dropWhile (· ≠ '/') ++ ['/'] := by
  rw [List.dropWhile_append]
  split
  · rename_i hnil
    rw [List.isEmpty_iff.mp hnil]
    rfl
  · rfl

theorem Unslashed.below {path rest : List Char} (h : Unslashed path ways)
    (hrun : path.dropWhile (· ≠ '/') = '/' :: rest) :
    Unslashed rest ((ways.after .parameter).after (.text '/')) := by
  intro p r hp hslash hs
  refine h _ r (mem_after.mp (mem_after.mp hp)) ?_ ⟨by simp, .inr rfl, ?_⟩
  · exact hslash.trans ((List.suffix_cons _ _).trans (List.suffix_cons _ _))
  · rw [dropWhile_concat_slash, hrun]
    exact ⟨_, rfl, hs⟩

theorem Unslashed.here?_eq_none {path : List Char} (h : Unslashed path ways)
    (hrun : path.dropWhile (· ≠ '/') = []) :
    ((ways.after .parameter).after (.text '/')).here? = none := by
  cases hh : ((ways.after .parameter).after (.text '/')).here? with
  | none => rfl
  | some r =>
    have hmem := mem_after.mp (mem_after.mp (mem_of_here? hh))
    refine absurd ⟨by simp, .inr rfl, ?_⟩ (h _ r hmem (List.suffix_cons _ _))
    rw [dropWhile_concat_slash, hrun]
    exact ⟨_, rfl, rfl⟩

/-- A search is not given up early for a path that does not end in a slash and does not lack one. -/
theorem follow_ne_stopped {c : Char} {path : List Char} (hpath : ¬ ['/'] <:+ c :: path)
    (hways : Unslashed path ways) : follow c ways path ≠ .stopped := by
  fun_induction follow c ways path with
  | case1 => simp
  | case2 => exact failing_ne_stopped hpath
  | case3 c ways path text left hpre d rest hdrop =>
    refine failing_ne_stopped fun h => hpath (h.trans ?_)
    rw [← hdrop]
    exact (List.drop_suffix _ _).trans (List.suffix_cons _ _)
  | case4 c ways path text left hpre d rest hdrop hlt named params rests hne ihNamed ihBelow =>
    have hrest : ¬ ['/'] <:+ d :: rest := fun h => hpath <| h.trans <| by
      rw [← hdrop]
      exact (List.drop_suffix _ _).trans (List.suffix_cons _ _)
    have hleft : Unslashed (d :: rest) left := hways.drop (eq_append_of_drop hpre hdrop)
    intro h
    rcases orElse_eq_stopped.mp h with h | ⟨-, h⟩
    · split at h
      · cases h
      · exact ihNamed hrest hleft.after h
    · split at h
      · cases h
      · split at h
        · cases h
        · split at h
          · rename_i hrun
            split at h
            · cases h
            · simp [hleft.here?_eq_none hrun, params] at h
          · rename_i slash rest' hrun
            have hrest' : ¬ ['/'] <:+ slash :: rest' := fun h => hrest <| h.trans <| by
              rw [← hrun]
              exact List.dropWhile_suffix _
            dsimp only at h
            split at h
            · exact failing_ne_stopped hrest' h
            · obtain rfl := eq_slash_of_dropWhile hrun
              exact ihBelow _ _ hrun hrest' (hleft.below hrun) h
  | case5 c ways path text left hpre hstop =>
    obtain ⟨r, hr⟩ := Option.isSome_iff_exists.mp hstop.2
    have hmem := mem_drop_start.mp (mem_of_here? hr)
    have htext : ways.start = path ++ ['/'] := hstop.1
    rw [htext, List.append_nil] at hmem
    refine absurd ?_ (hways _ r hmem ⟨path.map .text, by simp⟩)
    rw [← List.append_nil ((path ++ ['/']).map Piece.text)]
    exact stands_append.mpr ⟨[], by simp, rfl⟩
  | case6 => exact failing_ne_stopped hpath

/-- **A search finds a pattern where one stands for the path**, if the path does not end in a slash
and does not lack one. -/
theorem exists_follow_found {c : Char} {path : List Char} {p : Pattern} {r : ρ}
    (hpath : ¬ ['/'] <:+ c :: path) (hways : Unslashed path ways) (hp : (p, r) ∈ ways)
    (hs : Stands p path) : ∃ r', follow c ways path = .found r' := by
  revert p r
  fun_induction follow c ways path with
  | case1 c ways path text left hpre hdrop r' hhere => exact fun _ _ => ⟨r', rfl⟩
  | case2 c ways path text left hpre hdrop hhere =>
    intro p r hp hs
    obtain ⟨q, rest, hq, rfl, hs'⟩ := exists_mem_drop_start hp hs
    obtain rfl : rest = [] := by simpa [text] using hdrop
    obtain rfl := stands_nil.mp hs'
    obtain ⟨r', hr'⟩ := exists_here? hq
    exact absurd (hhere.symm.trans hr') (by simp)
  | case3 =>
    rename_i text left _ d rest hdrop _ named params rests hempty
    intro p r hp hs
    obtain ⟨q, rest', hq, rfl, hs'⟩ := exists_mem_drop_start hp hs
    obtain rfl : rest' = d :: rest := by simpa [text] using hdrop
    simp only [Bool.and_eq_true] at hempty
    obtain ⟨⟨hnamed, hparams⟩, hrests⟩ := hempty
    rcases stands_cons.mp hs' with ⟨q, rfl, -⟩ | ⟨q, rfl, -⟩ | rfl
    · exact absurd hnamed (by simp [isEmpty_of_mem (mem_after.mpr hq), named, left, text])
    · exact absurd hparams (by simp [isEmpty_of_mem (mem_after.mpr hq), params, left, text])
    · exact absurd hrests (by simp [isEmpty_of_mem (mem_after.mpr hq), rests, left, text])
  | case4 =>
    rename_i text left _ d rest hdrop _ named params rests hne ihNamed ihBelow
    intro p r hp hs
    have hrest : ¬ ['/'] <:+ d :: rest := fun h => hpath <| h.trans <| by
      rw [← hdrop]
      exact (List.drop_suffix _ _).trans (List.suffix_cons _ _)
    obtain ⟨q, rest', hq, rfl, hs'⟩ := exists_mem_drop_start hp hs
    obtain rfl : rest' = d :: rest := by simpa [text] using hdrop
    have hleft : Unslashed (d :: rest) left := hways.drop rfl
    -- The ways that go on with the next character come first; only a miss there leads on.
    generalize hfirst : (if List.isEmpty named then Outcome.missed else follow d named rest) = first
    cases first with
    | found r' => exact ⟨r', rfl⟩
    | stopped =>
      split at hfirst
      · cases hfirst
      · exact absurd hfirst (follow_ne_stopped hrest hleft.after)
    | missed =>
      simp only [Outcome.orElse]
      rcases stands_cons.mp hs' with ⟨q, rfl, hs⟩ | ⟨q, rfl, hq', hs⟩ | rfl
      · have hmem := mem_after.mpr hq
        rw [if_neg (by simp [isEmpty_of_mem hmem, named, left, text])] at hfirst
        obtain ⟨r', hr'⟩ := ihNamed hrest hleft.after hmem hs
        exact absurd (hfirst.symm.trans hr') (by simp)
      · have hmem := mem_after.mpr hq
        split
        · exact ⟨_, rfl⟩
        rw [if_neg (by simp [isEmpty_of_mem hmem, params, left, text])]
        split
        · rename_i hrun
          rw [hrun] at hs
          obtain rfl := stands_nil.mp hs
          obtain ⟨r', hr'⟩ := exists_here? hmem
          exact ⟨r', by simp [params, left, text, hr']⟩
        · rename_i slash rest' hrun
          obtain rfl := eq_slash_of_dropWhile hrun
          have hrest' : ¬ ['/'] <:+ '/' :: rest' := fun h => hrest <| h.trans <| by
            rw [← hrun]
            exact List.dropWhile_suffix _
          rw [hrun] at hs
          obtain rfl | hslash := hq'
          · simp [Stands] at hs
          obtain ⟨q, rfl⟩ := List.head?_eq_some_iff.mp hslash
          obtain ⟨_, ⟨⟩, hs⟩ := hs
          have hbelow := mem_after.mpr hmem
          rw [if_neg (by simp [isEmpty_of_mem hbelow, params, left, text])]
          exact ihBelow _ _ hrun hrest' (hleft.below hrun) hbelow hs
      · obtain ⟨r', hr'⟩ := exists_here? (mem_after.mpr hq)
        exact ⟨r', by simp [rests, left, text, hr']⟩
  | case5 c ways path text left hpre =>
    intro p r hp hs
    obtain ⟨_, rest, -, rfl, -⟩ := exists_mem_drop_start hp hs
    exact absurd (List.prefix_append _ rest) hpre
  | case6 c ways path text left hpre =>
    intro p r hp hs
    obtain ⟨_, rest, -, rfl, -⟩ := exists_mem_drop_start hp hs
    exact absurd (List.prefix_append _ rest) hpre

theorem find?_found {path : List Char} (h : ways.find? path = some r) :
    ∃ p, (p, r) ∈ ways ∧ Stands p path := by
  unfold find? at h
  split at h
  · rename_i rest
    generalize hout : follow '/' (ways.after (.text '/')) rest = out at h
    cases out with
    | found r' =>
      cases h
      obtain ⟨p, hp, hs⟩ := follow_found hout
      exact ⟨_, mem_after.mp hp, rest, rfl, hs⟩
    | missed => cases h
    | stopped => cases h
  · cases h

theorem isSome_find?_of_stands {path : List Char} (hpath : ¬ ['/'] <:+ path)
    (hways : Unslashed path ways) (hhead : p.head? = some (.text '/')) (hp : (p, r) ∈ ways)
    (hs : Stands p path) : (ways.find? path).isSome := by
  obtain ⟨q, rfl⟩ := List.head?_eq_some_iff.mp hhead
  obtain ⟨rest, rfl, hs⟩ := hs
  obtain ⟨r', hr'⟩ := exists_follow_found hpath hways.after (mem_after.mpr hp) hs
  simp [find?, hr', Outcome.toOption]

/-- **Paths are found exactly where a pattern stands for them**, in tables whose patterns start with a
slash, do not end in one and take no rest of the path. -/
theorem isSome_find?_iff {path : List Char} (hhead : ∀ p r, (p, r) ∈ ways → p.head? = some (.text '/'))
    (hlast : ∀ p r, (p, r) ∈ ways → ¬ [.text '/'] <:+ p) (hrest : ∀ p r, (p, r) ∈ ways → .rest ∉ p) :
    (ways.find? path).isSome ↔ ∃ p r, (p, r) ∈ ways ∧ Stands p path := by
  constructor
  · intro h
    obtain ⟨r, hr⟩ := Option.isSome_iff_exists.mp h
    obtain ⟨p, hp, hs⟩ := find?_found hr
    exact ⟨p, r, hp, hs⟩
  · rintro ⟨p, r, hp, hs⟩
    have hpath : ¬ ['/'] <:+ path := fun h =>
      (suffix_of_stands hs h).elim (hlast p r hp) (hrest p r hp)
    have hways : Unslashed path ways := fun q r hq hslash => absurd hslash (hlast q r hq)
    exact isSome_find?_of_stands hpath hways (hhead p r hp) hp hs

end Ways

end DataRepository.Routing

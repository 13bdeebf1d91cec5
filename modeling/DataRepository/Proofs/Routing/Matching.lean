import DataRepository.Proofs.Routing.Search
import Mathlib.Data.Option.Basic

/-! # What a search depends on

A search reads all patterns at once, in the order in which it is given them, and yet it asks nothing
of them but which patterns there are. Two tables with the same patterns are searched alike
(`Alike.find?`): the search ends in the same way, and where it finds something it finds what the two
tables have at one pattern. -/
namespace DataRepository.Routing

variable {ρ ρ' : Type} {R : ρ → ρ' → Prop}

/-! ## Outcomes -/

/-- Two searches end in the same way, and what they find is related. -/
inductive Outcome.Alike (R : ρ → ρ' → Prop) : Outcome ρ → Outcome ρ' → Prop
  | found {r : ρ} {r' : ρ'} (h : R r r') : Alike R (.found r) (.found r')
  | missed : Alike R .missed .missed
  | stopped : Alike R .stopped .stopped

namespace Outcome.Alike

theorem orElse {first : Outcome ρ} {first' : Outcome ρ'} {second : Unit → Outcome ρ}
    {second' : Unit → Outcome ρ'} (hfirst : Outcome.Alike R first first')
    (hsecond : Outcome.Alike R (second ()) (second' ())) :
    Outcome.Alike R (first.orElse second) (first'.orElse second') := by
  cases hfirst with
  | found h => exact .found h
  | missed => exact hsecond
  | stopped => exact .stopped

theorem toOption {o : Outcome ρ} {o' : Outcome ρ'} (h : Outcome.Alike R o o') :
    Option.Rel R o.toOption o'.toOption := by
  cases h with
  | found h => exact .some h
  | missed => exact .none
  | stopped => exact .none

theorem failing (left : List Char) :
    Outcome.Alike R (Ways.failing left : Outcome ρ) (Ways.failing left : Outcome ρ') := by
  unfold Ways.failing
  split
  · exact .stopped
  · exact .missed

/-- Two searches that look for a pattern that ends here, and go on alike without one. -/
theorem match_here? {o : Option ρ} {o' : Option ρ'} {other : Outcome ρ} {other' : Outcome ρ'} :
    Option.Rel R o o' → Outcome.Alike R other other' →
      Outcome.Alike R (match o with | some r => .found r | none => other)
        (match o' with | some r' => .found r' | none => other') := by
  intro h hother
  cases h with
  | some h => exact .found h
  | none => exact hother

end Outcome.Alike

/-! ## The text that patterns share -/

theorem prefix_commonText {text cs : List Char} {p : Pattern} (hcs : text <+: cs)
    (hp : text.map Piece.text <+: p) : text <+: commonText cs p := by
  induction text generalizing cs p with
  | nil => exact List.nil_prefix
  | cons c text ih =>
    obtain ⟨cs', rfl⟩ := hcs
    obtain ⟨p', rfl⟩ := hp
    simp only [List.cons_append, List.map_cons, commonText, if_true]
    exact List.cons_prefix_cons.mpr ⟨rfl, ih (List.prefix_append _ _) (List.prefix_append _ _)⟩

theorem prefix_leadingText {text : List Char} {p : Pattern} (hp : text.map Piece.text <+: p) :
    text <+: leadingText p := by
  induction text generalizing p with
  | nil => exact List.nil_prefix
  | cons c text ih =>
    obtain ⟨p', rfl⟩ := hp
    exact List.cons_prefix_cons.mpr ⟨rfl, ih (List.prefix_append _ _)⟩

theorem prefix_foldl_commonText {text cs : List Char} {ways : Ways ρ} (hcs : text <+: cs)
    (hways : ∀ way ∈ ways, text.map Piece.text <+: way.1) :
    text <+: ways.foldl (fun cs way => commonText cs way.1) cs := by
  induction ways generalizing cs with
  | nil => exact hcs
  | cons way ways ih =>
    obtain ⟨hway, hways⟩ := List.forall_mem_cons.mp hways
    exact ih (prefix_commonText hcs hway) hways

namespace Ways

variable {ways : Ways ρ} {ways' : Ways ρ'}

/-- The start of patterns is the longest text with which all of them start. -/
theorem prefix_start {text : List Char} (hne : ways ≠ [])
    (h : ∀ p r, (p, r) ∈ ways → text.map Piece.text <+: p) : text <+: ways.start := by
  cases ways with
  | nil => exact absurd rfl hne
  | cons way ways =>
    refine prefix_foldl_commonText (prefix_leadingText (h _ _ List.mem_cons_self)) fun w hw => ?_
    exact h w.1 w.2 (List.mem_cons_of_mem _ hw)

theorem here?_eq_none_iff : ways.here? = none ↔ ∀ r, ([], r) ∉ ways := by
  constructor
  · intro h r hr
    obtain ⟨r', hr'⟩ := exists_here? hr
    rw [h] at hr'
    cases hr'
  · intro h
    cases hhere : ways.here? with
    | none => rfl
    | some r => exact absurd (mem_of_here? hhere) (h r)

/-! ## One step of a search -/

/-- How a search goes on where patterns part, before the character `d`: with the patterns that name it,
then with those that take the rest of the path, and then with those that have a parameter here. -/
def parting (search : Char → Ways ρ → List Char → Outcome ρ) (left : Ways ρ) (d : Char)
    (rest : List Char) : Outcome ρ :=
  let named := left.after (.text d)
  let params := left.after .parameter
  let rests := left.after .rest
  let below := params.after (.text '/')
  if named.isEmpty && params.isEmpty && rests.isEmpty then failing (d :: rest)
  else
    (if named.isEmpty then .missed else search d named rest).orElse fun _ =>
      match rests.here? with
      | some r => .found r
      | none =>
        if params.isEmpty then .missed
        else
          match (d :: rest).dropWhile (· ≠ '/') with
          | [] =>
            match params.here? with
            | some r => .found r
            | none => if below.here?.isSome then .stopped else .missed
          | slash :: rest' => if below.isEmpty then failing (slash :: rest') else search '/' below rest'

theorem follow_eq (c : Char) (ways : Ways ρ) (path : List Char) :
    follow c ways path =
      if ways.start <+: path then
        match path.drop ways.start.length with
        | [] =>
          match (ways.drop ways.start.length).here? with
          | some r => .found r
          | none => failing (c :: path)
        | d :: rest => parting follow (ways.drop ways.start.length) d rest
      else if ways.start = path ++ ['/'] ∧ (ways.drop ways.start.length).here?.isSome then .stopped
      else failing (c :: path) := by
  rw [follow]
  split
  · -- The matches of the definition remember what they are made on, which is not used any more.
    simp only [parting]
    generalize path.drop ways.start.length = left
    cases left with
    | nil => rfl
    | cons d rest =>
      dsimp only
      generalize (d :: rest).dropWhile (· ≠ '/') = segment
      cases segment <;> rfl
  · rfl

/-! ## Tables with the same patterns -/

/-- The same patterns lead on, and what they lead to is related. -/
structure Alike (R : ρ → ρ' → Prop) (ways : Ways ρ) (ways' : Ways ρ') : Prop where
  patterns : ∀ p, (∃ r, (p, r) ∈ ways) ↔ ∃ r', (p, r') ∈ ways'
  ends : ∀ p r r', (p, r) ∈ ways → (p, r') ∈ ways' → R r r'

namespace Alike

theorem symm (h : Alike R ways ways') : Alike (fun r' r => R r r') ways' ways where
  patterns p := (h.patterns p).symm
  ends p r' r hr' hr := h.ends p r r' hr hr'

theorem eq_nil (h : Alike R ways ways') (hnil : ways = []) : ways' = [] := by
  subst hnil
  refine List.eq_nil_iff_forall_not_mem.mpr fun (p, r') hr' => ?_
  obtain ⟨r, hr⟩ := (h.patterns p).mpr ⟨r', hr'⟩
  cases hr

theorem isEmpty_eq (h : Alike R ways ways') : List.isEmpty ways = List.isEmpty ways' := by
  rw [Bool.eq_iff_iff, List.isEmpty_iff, List.isEmpty_iff]
  exact ⟨h.eq_nil, h.symm.eq_nil⟩

theorem start_prefix (h : Alike R ways ways') (hne : ways' ≠ []) : ways.start <+: ways'.start := by
  refine prefix_start hne fun p r' hr' => ?_
  obtain ⟨r, hr⟩ := (h.patterns p).mpr ⟨r', hr'⟩
  exact map_start_prefix hr

theorem start_eq (h : Alike R ways ways') : ways.start = ways'.start := by
  by_cases hnil : ways = []
  · rw [h.eq_nil hnil, hnil]
    rfl
  · have hle := h.start_prefix fun hnil' => hnil (h.symm.eq_nil hnil')
    have hge := h.symm.start_prefix hnil
    exact hle.eq_of_length_le hge.length_le

theorem left (h : Alike R ways ways') :
    Alike R (ways.drop ways.start.length) (ways'.drop ways'.start.length) := by
  constructor
  · intro p
    simp only [mem_drop_start]
    rw [h.start_eq]
    exact h.patterns _
  · intro p r r' hr hr'
    rw [mem_drop_start] at hr hr'
    rw [h.start_eq] at hr
    exact h.ends _ r r' hr hr'

theorem after (h : Alike R ways ways') (piece : Piece) :
    Alike R (ways.after piece) (ways'.after piece) := by
  constructor
  · intro p
    simp only [mem_after]
    exact h.patterns _
  · intro p r r' hr hr'
    exact h.ends _ r r' (mem_after.mp hr) (mem_after.mp hr')

theorem here? (h : Alike R ways ways') : Option.Rel R ways.here? ways'.here? := by
  cases hhere : ways.here? with
  | none =>
    have hnone : ways'.here? = none := here?_eq_none_iff.mpr fun r' hr' => by
      obtain ⟨r, hr⟩ := (h.patterns []).mpr ⟨r', hr'⟩
      exact here?_eq_none_iff.mp hhere r hr
    rw [hnone]
    exact .none
  | some r =>
    obtain ⟨r', hr'⟩ := (h.patterns []).mp ⟨r, mem_of_here? hhere⟩
    obtain ⟨r'', hhere'⟩ := exists_here? hr'
    rw [hhere']
    exact .some (h.ends [] r r'' (mem_of_here? hhere) (mem_of_here? hhere'))

theorem isSome_here?_eq (h : Alike R ways ways') :
    ways.here?.isSome = ways'.here?.isSome := by
  have hhere := h.here?
  generalize ways.here? = o, ways'.here? = o' at hhere ⊢
  cases hhere <;> rfl

theorem parting {search : Char → Ways ρ → List Char → Outcome ρ}
    {search' : Char → Ways ρ' → List Char → Outcome ρ'} (h : Alike R ways ways') (d : Char)
    (rest : List Char)
    (hsearch : ∀ c ways ways' path, path.length ≤ rest.length → Alike R ways ways' →
      Outcome.Alike R (search c ways path) (search' c ways' path)) :
    Outcome.Alike R (parting search ways d rest) (parting search' ways' d rest) := by
  have hparams := h.after .parameter
  have hbelow := hparams.after (.text '/')
  simp only [Ways.parting, (h.after _).isEmpty_eq, hbelow.isEmpty_eq]
  split
  · exact .failing _
  · refine .orElse ?_ (.match_here? (h.after .rest).here? ?_)
    · split
      · exact .missed
      · exact hsearch d _ _ rest (Nat.le_refl _) (h.after _)
    · split
      · exact .missed
      · split
        · refine .match_here? hparams.here? ?_
          rw [hbelow.isSome_here?_eq]
          split
          · exact .stopped
          · exact .missed
        · rename_i slash rest' hrun
          split
          · exact .failing _
          · refine hsearch '/' _ _ rest' ?_ hbelow
            have hsuffix := (List.dropWhile_suffix (· ≠ '/') (l := d :: rest)).length_le
            rw [hrun] at hsuffix
            exact Nat.le_of_succ_le_succ hsuffix

/-- **Tables with the same patterns are searched alike.** -/
theorem follow {path : List Char} (c : Char) (h : Alike R ways ways') :
    Outcome.Alike R (Ways.follow c ways path) (Ways.follow c ways' path) := by
  induction hn : path.length using Nat.strongRecOn generalizing c ways ways' path with
  | _ n ih =>
    have hleft := h.left
    rw [← h.start_eq] at hleft
    rw [follow_eq, follow_eq, ← h.start_eq, hleft.isSome_here?_eq]
    split
    · split
      · exact .match_here? hleft.here? (.failing _)
      · rename_i d rest hdrop
        refine hleft.parting d rest fun c' ways₁ ways₂ path' hlength h' => ?_
        refine ih path'.length ?_ c' h' rfl
        have hrest := congrArg List.length hdrop
        rw [List.length_drop, List.length_cons] at hrest
        omega
    · split
      · exact .stopped
      · exact .failing _

theorem find? {path : List Char} (h : Alike R ways ways') :
    Option.Rel R (ways.find? path) (ways'.find? path) := by
  unfold Ways.find?
  split
  · exact ((h.after (.text '/')).follow '/').toOption
  · exact .none

end Alike

end Ways

end DataRepository.Routing

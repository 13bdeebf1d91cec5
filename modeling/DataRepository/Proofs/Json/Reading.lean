import DataRepository.Proofs.Json.Spending

/-! # What is known of a document that is read

A document fits between the levels and the bytes that its reader was given: it is
no deeper than the levels and weighs no more than the bytes that were taken. The
three readers call each other, so one induction on their count proves it of all. -/
namespace DataRepository.Json

/-- A document that was read with this many levels and bytes to spend, and what is left of the
bytes. -/
structure Fits (levels bytes : Nat) (j : Json) (rest : Bytes) : Prop where
  depth : j.depth ≤ levels
  weight : j.weight + rest.length ≤ bytes
  canonical : j.Canonical

/-! ## Marks between values -/

theorem length_skipSpace_le (bs : Bytes) : (skipSpace bs).length ≤ bs.length :=
  (List.dropWhile_suffix _).length_le

theorem length_of_literal {expected : List Char} {bs rest : Bytes}
    (h : literal expected bs = .ok rest) : rest.length + expected.length = bs.length := by
  induction expected generalizing bs with
  | nil =>
    cases h
    rfl
  | cons c cs ih =>
    cases bs with
    | nil => cases h
    | cons b bs =>
      simp only [literal] at h
      split at h
      · have := ih h
        simp only [List.length_cons]
        omega
      · cases h

theorem length_of_colon {bs rest : Bytes} (h : colon bs = .ok rest) : rest.length + 1 ≤ bs.length := by
  have hskip := length_skipSpace_le bs
  unfold colon at h
  split at h
  · cases h
  · rename_i b left hleft
    rw [hleft, List.length_cons] at hskip
    split at h
    · cases h
      exact hskip
    · cases h

theorem weight_of_memberName {bs rest : Bytes} {name : String}
    (h : memberName bs = .ok (name, rest)) : stringWeight name + rest.length ≤ bs.length := by
  unfold memberName at h
  split at h
  · cases h
  · split at h
    · exact weight_of_stringText h
    · cases h

/-- What a reader finds ahead: the closing bracket, or an entry, which has a comma before it unless it
is the first one. -/
structure Ahead (first : Bool) (bs : Bytes) (next : Option Bytes) : Prop where
  closing : next = none → (afterClosing bs).length + 1 ≤ bs.length
  entry : ∀ left ∈ next, left.length + (if first then 0 else 1) ≤ bs.length

section Ahead

variable {first : Bool} {bs rest left : Bytes} {next : Option Bytes} {b c : UInt8}

theorem Ahead.of_closing (h : skipSpace bs = b :: rest) : Ahead first bs none := by
  have hskip := length_skipSpace_le bs
  rw [h, List.length_cons] at hskip
  refine ⟨fun _ => ?_, fun left hleft => (by cases hleft)⟩
  rw [afterClosing, h]
  exact hskip

theorem Ahead.of_first (h : skipSpace bs = b :: rest) (hfirst : first = true) :
    Ahead first bs (some (b :: rest)) := by
  have hskip := length_skipSpace_le bs
  rw [h] at hskip
  refine ⟨fun hnone => (by cases hnone), fun left hleft => ?_⟩
  cases hleft
  rw [if_pos hfirst]
  exact hskip

theorem Ahead.of_comma (h : skipSpace bs = b :: rest) (hmore : skipSpace rest = c :: left) :
    Ahead first bs (some (c :: left)) := by
  have hskip := length_skipSpace_le bs
  have hskip' := length_skipSpace_le rest
  rw [h, List.length_cons] at hskip
  rw [hmore] at hskip'
  refine ⟨fun hnone => (by cases hnone), fun left hleft => ?_⟩
  cases hleft
  split <;> omega

theorem ahead_of_nextItem? (h : nextItem? first bs = .ok next) : Ahead first bs next := by
  unfold nextItem? at h
  split at h
  · cases h
  · rename_i hbs
    split at h
    · cases h
      exact .of_closing hbs
    · split at h
      · rename_i hfirst
        cases h
        exact .of_first hbs hfirst
      · split at h
        · split at h
          · cases h
          · rename_i hmore
            split at h
            · cases h
            · cases h
              exact .of_comma hbs hmore
        · cases h

theorem ahead_of_nextMember? (h : nextMember? first bs = .ok next) : Ahead first bs next := by
  unfold nextMember? at h
  split at h
  · cases h
  · rename_i hbs
    split at h
    · cases h
      exact .of_closing hbs
    · split at h
      · rename_i hfirst
        split at h
        · cases h
          exact .of_first hbs hfirst
        · cases h
      · split at h
        · split at h
          · cases h
          · rename_i hmore
            split at h
            · cases h
              exact .of_comma hbs hmore
            · split at h <;> cases h
        · cases h

end Ahead

/-! ## Documents -/

/-- A document that is no array and no object takes no level. -/
theorem Fits.of_scalar {levels bytes : Nat} {j : Json} {rest : Bytes} (hdepth : j.depth = 0)
    (hcanonical : j.Canonical) (hweight : j.weight + rest.length ≤ bytes) : Fits levels bytes j rest :=
  ⟨by omega, hweight, hcanonical⟩

theorem fits_of_literal {expected : List Char} {bs rest : Bytes} {j : Json} {levels : Nat}
    (hdepth : j.depth = 0) (hcanonical : j.Canonical) (hweight : j.weight = expected.length + 1)
    (h : literal expected bs = .ok rest) : Fits levels (bs.length + 1) j rest := by
  have hlength := length_of_literal h
  exact .of_scalar hdepth hcanonical (by omega)

theorem fits_of_scalar {b : UInt8} {bs rest : Bytes} {j : Json} {levels : Nat}
    (h : scalar b bs = .ok (j, rest)) : Fits levels (bs.length + 1) j rest := by
  unfold scalar at h
  split at h
  · obtain ⟨left, hleft, hj⟩ := exists_of_map_eq_ok h
    cases hj
    exact fits_of_literal rfl trivial rfl hleft
  split at h
  · obtain ⟨left, hleft, hj⟩ := exists_of_map_eq_ok h
    cases hj
    exact fits_of_literal rfl trivial rfl hleft
  split at h
  · obtain ⟨left, hleft, hj⟩ := exists_of_map_eq_ok h
    cases hj
    exact fits_of_literal rfl trivial rfl hleft
  split at h
  · obtain ⟨⟨n, left⟩, hleft, hj⟩ := exists_of_map_eq_ok h
    cases hj
    exact .of_scalar rfl trivial (weight_of_numberText hleft)
  split at h
  · obtain ⟨⟨n, left⟩, hleft, hj⟩ := exists_of_map_eq_ok h
    cases hj
    exact .of_scalar rfl trivial (weight_of_numberText hleft)
  split at h
  · obtain ⟨⟨s, left⟩, hleft, hj⟩ := exists_of_map_eq_ok h
    cases hj
    exact .of_scalar rfl trivial (weight_of_stringText hleft)
  · cases h

theorem Fits.mono {levels levels' bytes bytes' : Nat} {j : Json} {rest : Bytes}
    (h : Fits levels bytes j rest) (hlevels : levels ≤ levels') (hbytes : bytes ≤ bytes') :
    Fits levels' bytes' j rest :=
  ⟨Nat.le_trans h.depth hlevels, Nat.le_trans h.weight hbytes, h.canonical⟩

/-- The items that have been read, weighed with the bracket before them. -/
def spentOn (done : List Json) : Nat := max 1 (weighItems (fun _ => 1) done)

/-- The members that have been read, weighed with the bracket before them. -/
def spentOnMembers (done : List (String × Json)) : Nat := max 1 (weighMembers (fun _ => 1) done)

/-- Every item but the first takes a comma. -/
theorem spentOn_cons_le {done : List Json} {item : Json} {bytes left rest : Nat}
    (hleft : left + (if done.isEmpty then 0 else 1) ≤ bytes) (hitem : item.weight + rest ≤ left) :
    rest + spentOn (item :: done) ≤ bytes + spentOn done := by
  simp only [weight] at hitem
  cases done with
  | nil =>
    simp only [spentOn, weighItems, List.isEmpty_nil, if_true] at hleft ⊢
    omega
  | cons =>
    simp only [spentOn, weighItems, List.isEmpty_cons, Bool.false_eq_true, if_false] at hleft ⊢
    omega

/-- Every member but the first takes a comma, and all of them take a colon. -/
theorem spentOnMembers_cons_le {done : List (String × Json)} {name : String} {j : Json}
    {bytes left rest : Nat} (hleft : left + (if done.isEmpty then 0 else 1) ≤ bytes)
    (hmember : stringWeight name + 1 + j.weight + rest ≤ left) :
    rest + spentOnMembers ((name, j) :: done) ≤ bytes + spentOnMembers done := by
  simp only [weight] at hmember
  cases done with
  | nil =>
    simp only [spentOnMembers, weighMembers, weighMember, List.isEmpty_nil, if_true] at hleft ⊢
    omega
  | cons =>
    simp only [spentOnMembers, weighMembers, weighMember, List.isEmpty_cons, Bool.false_eq_true,
      if_false] at hleft ⊢
    omega

theorem fits_array {levels : Nat} {done : List Json} {bs : Bytes} (hlevels : 1 ≤ levels)
    (hdepth : ∀ i ∈ done, i.depth ≤ levels - 1) (hcanonical : ∀ i ∈ done, i.Canonical)
    (hclosed : (afterClosing bs).length + 1 ≤ bs.length) :
    Fits levels (bs.length + spentOn done) (.array done.reverse) (afterClosing bs) := by
  refine ⟨?_, ?_, ?_⟩
  · have hitems : depthItems done.reverse ≤ levels - 1 :=
      depthItems_le_iff.mpr fun i hi => hdepth i (List.mem_reverse.mp hi)
    simp only [depth]
    omega
  · simp only [weight, weigh, weighItems_reverse, spentOn]
    omega
  · exact canonicalItems_iff.mpr fun i hi => hcanonical i (List.mem_reverse.mp hi)

theorem fits_object {levels : Nat} {done : List (String × Json)} {bs : Bytes} (hlevels : 1 ≤ levels)
    (hdepth : ∀ m ∈ done, m.2.depth ≤ levels - 1) (hcanonical : ∀ m ∈ done, m.2.Canonical)
    (hclosed : (afterClosing bs).length + 1 ≤ bs.length) :
    Fits levels (bs.length + spentOnMembers done) (.object (Members.ofReversed done))
      (afterClosing bs) := by
  obtain ⟨hascending, hmem, hweight⟩ := Members.ofReversed_spec (w := fun _ => 1) done
  refine ⟨?_, ?_, ?_⟩
  · have hmembers : depthMembers (Members.ofReversed done) ≤ levels - 1 :=
      depthMembers_le_iff.mpr fun m hm => hdepth m (hmem m hm)
    simp only [depth]
    omega
  · simp only [weight, weigh, spentOnMembers]
    omega
  · exact ⟨hascending, canonicalMembers_iff.mpr fun m hm => hcanonical m (hmem m hm)⟩

/-- **What is read fits**: a value on its own, and the items or members that are read after others. -/
theorem fits_within (count : Nat) :
    (∀ levels bs j rest, valueWithin count levels bs = .ok (j, rest) →
      Fits (levels - 1) bs.length j rest) ∧
    (∀ levels first done bs j rest, itemsWithin count levels first done bs = .ok (j, rest) →
      first = done.isEmpty → 1 ≤ levels → (∀ i ∈ done, i.depth ≤ levels - 1) →
      (∀ i ∈ done, i.Canonical) → Fits levels (bs.length + spentOn done) j rest) ∧
    (∀ levels first done bs j rest, membersWithin count levels first done bs = .ok (j, rest) →
      first = done.isEmpty → 1 ≤ levels → (∀ m ∈ done, m.2.depth ≤ levels - 1) →
      (∀ m ∈ done, m.2.Canonical) → Fits levels (bs.length + spentOnMembers done) j rest) := by
  -- A reader gives each call a smaller count; `first` tells whether a comma has to be paid for.
  induction count with
  | zero =>
    refine ⟨?_, ?_, ?_⟩
    · intro levels bs j rest h; cases h
    · intro levels first done bs j rest h; cases h
    · intro levels first done bs j rest h; cases h
  | succ count ih =>
    obtain ⟨ihValue, ihItems, ihMembers⟩ := ih
    refine ⟨?value, ?items, ?members⟩
    case value =>
      intro levels bs j rest h
      have hskip := length_skipSpace_le bs
      simp only [valueWithin] at h
      split at h
      · cases h
      · rename_i b left hleft
        rw [hleft, List.length_cons] at hskip
        split at h
        · split at h
          · cases h
          · exact (ihItems _ _ _ _ _ _ h rfl (by omega) (by simp) (by simp)).mono
              (Nat.le_refl _) hskip
        · split at h
          · split at h
            · cases h
            · exact (ihMembers _ _ _ _ _ _ h rfl (by omega) (by simp) (by simp)).mono
                (Nat.le_refl _) hskip
          · exact (fits_of_scalar h).mono (Nat.le_refl _) hskip
    case items =>
      intro levels first done bs j rest h hfirst hlevels hdepth hcanonical
      simp only [itemsWithin] at h
      split at h
      · cases h
      · rename_i hnext
        cases h
        exact fits_array hlevels hdepth hcanonical ((ahead_of_nextItem? hnext).closing rfl)
      · rename_i left hnext
        have hleft := (ahead_of_nextItem? hnext).entry left rfl
        split at h
        · cases h
        · rename_i item left' hitem
          have hfits := ihValue _ _ _ _ hitem
          refine (ihItems _ _ _ _ _ _ h rfl hlevels ?_ ?_).mono (Nat.le_refl _) ?_
          · exact List.forall_mem_cons.mpr ⟨hfits.depth, hdepth⟩
          · exact List.forall_mem_cons.mpr ⟨hfits.canonical, hcanonical⟩
          · exact spentOn_cons_le (hfirst ▸ hleft) hfits.weight
    case members =>
      intro levels first done bs j rest h hfirst hlevels hdepth hcanonical
      simp only [membersWithin] at h
      split at h
      · cases h
      · rename_i hnext
        cases h
        exact fits_object hlevels hdepth hcanonical ((ahead_of_nextMember? hnext).closing rfl)
      · rename_i left hnext
        have hleft := (ahead_of_nextMember? hnext).entry left rfl
        split at h
        · cases h
        · rename_i name afterName hname
          have hname := weight_of_memberName hname
          split at h
          · cases h
          · rename_i afterColon hcolon
            have hcolon := length_of_colon hcolon
            split at h
            · cases h
            · rename_i item afterItem hitem
              have hfits := ihValue _ _ _ _ hitem
              have hweight := hfits.weight
              refine (ihMembers _ _ _ _ _ _ h rfl hlevels ?_ ?_).mono (Nat.le_refl _) ?_
              · exact List.forall_mem_cons.mpr ⟨hfits.depth, hdepth⟩
              · exact List.forall_mem_cons.mpr ⟨hfits.canonical, hcanonical⟩
              · exact spentOnMembers_cons_le (hfirst ▸ hleft) (by omega)

/-- **A text is read as a document in normal form that is no deeper than the limit and weighs no more
than the text.** -/
theorem fits_of_parse {text : Bytes} {j : Json} (h : parse text = .ok j) :
    Fits (nestingLimit - 1) text.length j [] := by
  obtain ⟨⟨j', rest⟩, hvalue, hend⟩ := exists_of_bind_eq_ok h
  have hfits := (fits_within _).1 _ _ _ _ hvalue
  unfold atEnd at hend
  split at hend
  · cases hend
    exact ⟨hfits.depth, Nat.le_trans (Nat.le_add_right _ _) hfits.weight, hfits.canonical⟩
  · cases hend

end DataRepository.Json

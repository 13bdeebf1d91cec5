import DataRepository.Proofs.Access.Acceptance
import DataRepository.Proofs.Settings.Fields
import DataRepository.Proofs.Text.Numerals

/-! # Texts that come through the environment

A variable is read before it is known what its setting needs: as a truth value, else as a
whole number, else as a double, else as a text. A setting that is a text gets what was read
written out again. So a text comes through as it is if it is nothing but a text, or if it is
written the way in which its value is written out (`text?_of_load`). -/
namespace DataRepository.Settings

/-! ## Whole numbers -/

/-- A numeral of a whole number of sixty-four bits: digits, with a sign before them or not. -/
inductive Spells : List Char → Int → Prop where
  | unsigned {ds : List Char} {n : Nat} (h : Text.digits? ds = some n) (hn : n < 0x8000000000000000) :
      Spells ds n
  | plus {ds : List Char} {n : Nat} (h : Text.digits? ds = some n) (hn : n < 0x8000000000000000) :
      Spells ('+' :: ds) n
  | minus {ds : List Char} {n : Nat} (h : Text.digits? ds = some n) (hn : n ≤ 0x8000000000000000) :
      Spells ('-' :: ds) (-n)

/-- A numeral without a plus sign, without a needless zero and without a sign of zero. -/
def IsTrim (cs : List Char) : Prop :=
  cs = ['0'] ∨ ∀ start ∈ [['+'], ['0'], ['-', '0']], ¬ start <+: cs

instance (cs : List Char) : Decidable (IsTrim cs) := inferInstanceAs (Decidable (_ ∨ _))

theorem whole?_minus (ds : List Char) : whole? ('-' :: ds) =
    ((Text.digits? ds).filter (· ≤ 0x8000000000000000)).map fun n : Nat => -(n : Int) := by
  rw [whole?]
  cases (Text.digits? ds).filter (· ≤ 0x8000000000000000) <;> rfl

theorem whole?_of_head?_ne {cs : List Char} (h : cs.head? ≠ some '-') : whole? cs =
    ((Text.unsigned? cs).filter (· < 0x8000000000000000)).map fun n : Nat => (n : Int) := by
  unfold whole?
  split
  · exact absurd rfl h
  · rw [Text.unsignedBelow?]
    cases (Text.unsigned? cs).filter (· < 0x8000000000000000) <;> rfl

theorem whole?_eq_some_iff {cs : List Char} {n : Int} : whole? cs = some n ↔ Spells cs n := by
  constructor
  · intro h
    by_cases hminus : cs.head? = some '-'
    · obtain ⟨ds, rfl⟩ := List.head?_eq_some_iff.mp hminus
      rw [whole?_minus] at h
      obtain ⟨m, hm, rfl⟩ := Option.map_eq_some_iff.mp h
      obtain ⟨hdigits, hle⟩ := Option.filter_eq_some_iff.mp hm
      exact .minus hdigits (of_decide_eq_true hle)
    · rw [whole?_of_head?_ne hminus] at h
      obtain ⟨m, hm, rfl⟩ := Option.map_eq_some_iff.mp h
      obtain ⟨hunsigned, hlt⟩ := Option.filter_eq_some_iff.mp hm
      unfold Text.unsigned? at hunsigned
      split at hunsigned
      · exact .plus hunsigned (of_decide_eq_true hlt)
      · exact .unsigned hunsigned (of_decide_eq_true hlt)
  · intro h
    cases h with
    | plus hdigits hn =>
      rw [whole?_of_head?_ne (by simp), Text.unsigned?, hdigits]
      simp only [Option.filter_some, hn, decide_true, if_true, Option.map_some]
    | minus hdigits hn =>
      rw [whole?_minus, hdigits]
      simp only [Option.filter_some, hn, decide_true, if_true, Option.map_some]
    | unsigned hdigits hn =>
      obtain ⟨c, ds, rfl, hc⟩ := Text.exists_digit_of_digits? hdigits
      rw [whole?_of_head?_ne (by simpa using (Text.ne_sign_of_digit hc).2),
        Text.unsigned?_of_ne (Text.ne_sign_of_digit hc).1, hdigits]
      simp only [Option.filter_some, hn, decide_true, if_true, Option.map_some]

theorem isTrim_cons_iff {c : Char} {cs : List Char} (h : (Text.digitValue? c).isSome = true) :
    IsTrim (c :: cs) ↔ c :: cs = ['0'] ∨ c ≠ '0' := by
  obtain ⟨hplus, hminus⟩ := Text.ne_sign_of_digit h
  simp [IsTrim, hplus.symm, hminus.symm, eq_comm]

theorem isTrim_minus_iff {cs : List Char} : IsTrim ('-' :: cs) ↔ cs.head? ≠ some '0' := by
  cases cs <;> simp [IsTrim, eq_comm]

theorem not_isTrim_plus (cs : List Char) : ¬ IsTrim ('+' :: cs) := by
  simp [IsTrim]

/-- The characters of a whole number are those of a numeral of it, if the numeral is trim. -/
theorem wholeChars_eq_iff {cs : List Char} {n : Int} (h : Spells cs n) :
    (if n < 0 then ['-'] else []) ++ Nat.toDigits 10 n.natAbs = cs ↔ IsTrim cs := by
  have hsign : ∀ (m : Nat) (c : Char) (ds : List Char), c.isDigit = false →
      Nat.toDigits 10 m ≠ c :: ds := by
    intro m c ds hc hdigits
    have hmem : c ∈ Nat.toDigits 10 m := hdigits ▸ List.mem_cons_self
    rw [Nat.isDigit_of_mem_toDigits (by decide) (by decide) hmem] at hc
    cases hc
  cases h with
  | @unsigned ds n hdigits hn =>
    obtain ⟨c, rest, rfl, hc⟩ := Text.exists_digit_of_digits? hdigits
    rw [if_neg (by omega), List.nil_append, Int.natAbs_natCast, Text.toDigits_eq_iff hdigits,
      isTrim_cons_iff hc]
    simp
  | @plus ds n hdigits hn =>
    rw [if_neg (by omega), List.nil_append, Int.natAbs_natCast]
    exact iff_of_false (hsign _ _ _ rfl) (not_isTrim_plus ds)
  | @minus ds n hdigits hn =>
    have hwritten := Text.toDigits_eq_iff hdigits
    rw [isTrim_minus_iff, Int.natAbs_neg, Int.natAbs_natCast]
    rcases Nat.eq_zero_or_pos n with rfl | hpos
    · refine iff_of_false (hsign 0 _ _ rfl) fun hfirst => hfirst ?_
      rw [← hwritten.mpr (.inr hfirst)]
      rfl
    · have hne : ds ≠ ['0'] := by
        rintro rfl
        obtain rfl : 0 = n := Option.some.inj hdigits
        exact absurd hpos (Nat.lt_irrefl 0)
      rw [if_pos (by omega), List.singleton_append, List.cons.injEq, hwritten]
      simp [hne]

/-- A whole number is written as it was spelled, if that is trim. -/
theorem wholeText_eq_iff {s : String} {n : Int} (h : Spells s.toList n) :
    Value.wholeText n = s ↔ IsTrim s.toList := by
  rw [← wholeChars_eq_iff h, Value.wholeText, ← String.toList_inj, String.toList_ofList]

-- A needless zero, a plus sign and a sign of zero.
example : IsTrim "0".toList ∧ IsTrim "-70".toList ∧
    ¬ IsTrim "007".toList ∧ ¬ IsTrim "+7".toList ∧ ¬ IsTrim "-0".toList := by decide +kernel

/-! ## What is written out -/

/-- A word for a truth value, in any case. -/
def IsTruthWord (s : String) : Prop := lower s = "true" ∨ lower s = "false"

/-- The text that is written out for what is read in a text. -/
inductive Taken (s : String) : String → Prop where
  | word (h : IsTruthWord s) : Taken s (lower s)
  | whole {n : Int} (hword : ¬ IsTruthWord s) (h : Spells s.toList n) : Taken s (Value.wholeText n)
  | double {d : Double} (hword : ¬ IsTruthWord s) (hwhole : ∀ n, ¬ Spells s.toList n)
      (h : Double.ofText? s.toList = some d) : Taken s (String.ofList d.plainChars)
  | rest (hword : ¬ IsTruthWord s) (hwhole : ∀ n, ¬ Spells s.toList n)
      (h : Double.ofText? s.toList = none) : Taken s s

/-- A text that is no truth value and no number, or is written as its value is written out. -/
structure IsVerbatim (s : String) : Prop where
  word : IsTruthWord s → lower s = s
  whole : ∀ n, Spells s.toList n → IsTrim s.toList
  double : (∀ n, ¬ Spells s.toList n) → ∀ d, Double.ofText? s.toList = some d → d.plainChars = s.toList

theorem taken_ofVariable (s : String) : ∃ t, (Value.ofVariable s).asText? = some t ∧ Taken s t := by
  unfold Value.ofVariable
  by_cases htrue : lower s = "true"
  · rw [if_pos htrue]
    exact ⟨"true", rfl, htrue ▸ .word (.inl htrue)⟩
  · by_cases hfalse : lower s = "false"
    · rw [if_neg htrue, if_pos hfalse]
      exact ⟨"false", rfl, hfalse ▸ .word (.inr hfalse)⟩
    · have hword : ¬ IsTruthWord s := not_or.mpr ⟨htrue, hfalse⟩
      rw [if_neg htrue, if_neg hfalse]
      cases hwhole : whole? s.toList with
      | some n => exact ⟨_, rfl, .whole hword (whole?_eq_some_iff.mp hwhole)⟩
      | none =>
        have hnone : ∀ n, ¬ Spells s.toList n := by
          intro n hn
          rw [whole?_eq_some_iff.mpr hn] at hwhole
          cases hwhole
        cases hdouble : Double.ofText? s.toList with
        | some d => exact ⟨_, rfl, .double hword hnone hdouble⟩
        | none => exact ⟨_, rfl, .rest hword hnone hdouble⟩

/-- The words for truth values are no numbers. -/
theorem isVerbatim_of_word {s : String} (h : s = "true" ∨ s = "false") : IsVerbatim s := by
  have hwhole : whole? s.toList = none := by rcases h with rfl | rfl <;> decide
  have hdouble : Double.ofText? s.toList = none := by rcases h with rfl | rfl <;> decide
  have hlower : lower s = s := by rcases h with rfl | rfl <;> decide
  refine ⟨fun _ => hlower, fun n hn => ?_, fun _ d hd => ?_⟩
  · rw [whole?_eq_some_iff.mpr hn] at hwhole
    cases hwhole
  · rw [hd] at hdouble
    cases hdouble

/-- **A text is written out as it is exactly if it comes through as it is.** -/
theorem Taken.eq_iff {s t : String} (h : Taken s t) : t = s ↔ IsVerbatim s := by
  cases h with
  | word hword =>
    refine ⟨fun hlower => isVerbatim_of_word ?_, fun h => h.word hword⟩
    unfold IsTruthWord at hword
    rwa [hlower] at hword
  | whole hword hspells =>
    rw [wholeText_eq_iff hspells]
    exact ⟨fun htrim => ⟨fun h => absurd h hword, fun _ _ => htrim, fun h => absurd hspells (h _)⟩,
      fun h => h.whole _ hspells⟩
  | @double d hword hwhole hdouble =>
    rw [← String.toList_inj, String.toList_ofList]
    refine ⟨fun hd => ⟨fun h => absurd h hword, fun n hn => absurd hn (hwhole n), ?_⟩,
      fun h => h.double hwhole d hdouble⟩
    intro _ d' hd'
    rw [hdouble] at hd'
    cases hd'
    exact hd
  | rest hword hwhole hdouble =>
    refine iff_of_true rfl ⟨fun h => absurd h hword, fun n hn => absurd hn (hwhole n), ?_⟩
    intro _ d hd
    rw [hdouble] at hd
    cases hd

/-! ## Loading -/

/-- The variable that a setting has, by the names that lead to it. -/
def TextSetting.variableName (k : TextSetting) : String :=
  "UDR_" ++ String.intercalate "__" (k.names.map String.toUpper)

/-- A variable names a setting if the path that it names takes the names of the setting. -/
def TextSetting.IsNamedBy (k : TextSetting) (name : String) : Prop :=
  (variablePath? name).map Path.fromRoot = some (k.names.map .member)

instance (k : TextSetting) (name : String) : Decidable (k.IsNamedBy name) :=
  inferInstanceAs (Decidable (_ = _))

theorem TextSetting.isNamedBy_variableName (k : TextSetting) : k.IsNamedBy k.variableName := by
  cases k <;> decide +kernel

/-- A variable gives its setting what is written out for its text. -/
theorem text?_of_ofMembers? {k : TextSetting} {freshId : String} {members : List (String × Value)}
    {before after : List (String × String)} {name text : String} {s : Settings}
    (hname : k.IsNamedBy name) (hafter : ∀ v ∈ after, VariableParts v.1 k.names)
    (h : ofMembers? freshId (apply members (ofVariables (before ++ (name, text) :: after))) = some s) :
    k.text? s = (Value.ofVariable text).asText? := by
  obtain ⟨p, hp, hroot⟩ := Option.map_eq_some_iff.mp hname
  exact text?_of_follow? h k
    (follow?_apply_ofVariables hroot k.lowerName_of_mem_names hp before hafter members)

/-- **A text that is loaded is what was read in its variable, written out again**, and it is the text of
the variable exactly if that comes through as it is. A token that is signed with such a text as the
key is then verified with the key that is loaded. -/
theorem text?_of_load {k : TextSetting} {freshId : String} {file : File}
    {before after : List (String × String)} {name text : String} {s : Settings}
    (hname : k.IsNamedBy name) (hafter : ∀ v ∈ after, VariableParts v.1 k.names)
    (hload : load freshId file (before ++ (name, text) :: after) = .ok s) :
    ∃ t, Taken text t ∧ k.text? s = some t ∧ (t = text ↔ IsVerbatim text) ∧
      (k = .tokenKey → IsVerbatim text → ∃ key, s.policy.key = some key ∧
        ∀ token c service now,
          (∃ header claims sign, Access.Signed (Text.bytes text) token c header claims sign) →
          now < c.expiry → Text.IsWord service.name c.scope →
          Access.verify key token service now = .ok c) := by
  obtain ⟨given, -, hmembers⟩ := exists_given_of_load hload
  obtain ⟨t, ht, htaken⟩ := taken_ofVariable text
  have htext : k.text? s = some t := (text?_of_ofMembers? hname hafter hmembers).trans ht
  refine ⟨t, htaken, htext, htaken.eq_iff, ?_⟩
  rintro rfl hverbatim
  obtain rfl : t = text := htaken.eq_iff.mpr hverbatim
  have hkey : s.tokenKey = some t := htext
  refine ⟨Text.bytes t, by rw [policy, hkey]; rfl, fun token c service now hsigned hexpiry hscope => ?_⟩
  exact Access.verify_eq_ok.mpr
    ⟨Access.signedClaims_eq_ok_iff.mpr hsigned, hexpiry, Access.grants_iff.mpr hscope⟩

/-- A key that a file and an older variable give too, and settings of other names after it. -/
theorem text?_of_load_key :
    let before := [("PATH", "/bin"), ("udr_nrf_token_key", "old")]
    let after := [("UDR_OAUTH2_REQUIRED", "true"), ("UDR_SBI__PORT", "9000")]
    let s : Settings := {
      instanceId := "udr-1", listener := { scheme := "https", port := 9000 }, tokenRequired := true
      tokenKey := some "s3cret=0" }
    TextSetting.tokenKey.IsNamedBy "UDR_NRF_TOKEN_KEY" ∧
      (∀ v ∈ after, VariableParts v.1 TextSetting.tokenKey.names) ∧
      load "udr-1" (.text "nrf_token_key: filed\nsbi:\n  scheme: https\n")
        (before ++ ("UDR_NRF_TOKEN_KEY", "s3cret=0") :: after) = .ok s ∧
      Taken "s3cret=0" "s3cret=0" ∧ IsVerbatim "s3cret=0" ∧
      ∀ token c service now,
        (∃ header claims sign, Access.Signed (Text.bytes "s3cret=0") token c header claims sign) →
        now < c.expiry → Text.IsWord service.name c.scope →
        ∃ key, s.policy.key = some key ∧ Access.verify key token service now = .ok c := by
  intro before after s
  have hvariable : TextSetting.tokenKey.variableName = "UDR_NRF_TOKEN_KEY" := by decide +kernel
  have hname : TextSetting.tokenKey.IsNamedBy "UDR_NRF_TOKEN_KEY" :=
    hvariable ▸ TextSetting.tokenKey.isNamedBy_variableName
  have hafter : ∀ v ∈ after, VariableParts v.1 TextSetting.tokenKey.names := by decide +kernel
  have hload : load "udr-1" (.text "nrf_token_key: filed\nsbi:\n  scheme: https\n")
      (before ++ ("UDR_NRF_TOKEN_KEY", "s3cret=0") :: after) = .ok s := by decide +kernel
  obtain ⟨t, htaken, htext, hiff, hsigned⟩ := text?_of_load hname hafter hload
  obtain rfl : "s3cret=0" = t := Option.some.inj htext
  have hverbatim := hiff.mp rfl
  obtain ⟨key, hkey, hverify⟩ := hsigned rfl hverbatim
  refine ⟨hname, hafter, hload, htaken, hverbatim, fun token c service now h hexpiry hscope => ?_⟩
  exact ⟨key, hkey, hverify token c service now h hexpiry hscope⟩

/-- A key of digits is loaded as the number that it spells, and a token that is signed with the digits
is refused. A text is not loaded either if a later variable names its setting in other letters, or by
its position. -/
theorem text_not_loaded :
    let token := Access.issue (Text.bytes "007") ⟨"nrf", "amf", .string "udr", "nudr-dr", 100⟩
    (∃ s, load "udr-1" .unnamed [("UDR_NRF_TOKEN_KEY", "007")] = .ok s ∧ s.tokenKey = some "7" ∧
        s.policy.key = some (Text.bytes "7") ∧
        Access.verify (Text.bytes "7") token .dataRepository 99 = .error .badSignature) ∧
      (∃ s, load "udr-1" .unnamed [("UDR_LOG_LEVEL", "warn"), ("udr_log_level", "trace")] = .ok s ∧
        s.logLevel = "trace") ∧
      ∃ s, load "udr-1" .unnamed [("UDR_SBI__SCHEME", "https"), ("UDR_SBI[0]", "ftp")] = .ok s ∧
        s.listener.scheme = "ftp" := by
  refine ⟨⟨{ instanceId := "udr-1", tokenKey := some "7" }, ?_, rfl, rfl, ?_⟩,
    ⟨{ instanceId := "udr-1", logLevel := "trace" }, ?_, rfl⟩,
    ⟨{ instanceId := "udr-1", listener := { scheme := "ftp" } }, ?_, rfl⟩⟩ <;> decide +kernel

end DataRepository.Settings

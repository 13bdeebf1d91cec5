import DataRepository.Proofs.Access.Denials
import DataRepository.Proofs.Json.RoundTrip

/-! # Issued tokens

A token is written in three layers: the claims as a document, the document as base64url,
the segments with a dot between two. Each layer is read back as it was written, so the
verifier finds the claims that were issued, and only the expiry and the scope decide. A
token is of shown characters throughout, so a header carries it as it is. -/
namespace DataRepository.Access

open Json (Member Reader Record)
open Text Text.Base64Url

/-! ## Segments -/

theorem exists_digit (n : Nat) : ∃ m : Fin 64, digit n = digit m := by
  by_cases h : n < 64
  · exact ⟨⟨n, h⟩, rfl⟩
  · refine ⟨63, ?_⟩
    simp only [digit, if_neg (show ¬ n < 26 by omega), if_neg (show ¬ n < 52 by omega),
      if_neg (show ¬ n < 62 by omega), if_neg (show ¬ n = 62 by omega)]
    rfl

/-- A segment holds nothing but digits. -/
theorem exists_digit_of_mem_encode (bs : Bytes) : ∀ c ∈ encode bs, ∃ m : Fin 64, c = digit m := by
  fun_induction encode bs with
  | case1 a b c rest ih =>
    simp only [List.forall_mem_cons]
    exact ⟨exists_digit _, exists_digit _, exists_digit _, exists_digit _, ih⟩
  | case2 a b =>
    simp only [List.forall_mem_cons]
    exact ⟨exists_digit _, exists_digit _, exists_digit _, List.forall_mem_nil _⟩
  | case3 a =>
    simp only [List.forall_mem_cons]
    exact ⟨exists_digit _, exists_digit _, List.forall_mem_nil _⟩
  | case4 => exact List.forall_mem_nil _

/-- No segment holds the character that separates segments. -/
theorem dot_not_mem_encode (bs : Bytes) : '.' ∉ encode bs := by
  intro hdot
  have hall : ∀ m : Fin 64, '.' ≠ digit m := by decide
  obtain ⟨m, hm⟩ := exists_digit_of_mem_encode bs '.' hdot
  exact hall m hm

/-! ## Documents of a token -/

theorem read_algorithm (a : String) :
    algorithmRecord.reader.read (Json.toBytes (.object [("alg", .string a)])) = .ok a := by
  have hfills : algorithmRecord.Fills (Json.nestingLimit - 1) none [("alg", .string a)] (some a) :=
    .cons _ rfl rfl (Member.takes_of fun rest _ => Reader.string_written _ _ _ rest) (.nil _)
  exact Record.read_written hfills rfl

/-- The draft that claims fill. -/
def Claims.draft (c : Claims) : Claims.Draft where
  issuer := some c.issuer
  subject := some c.subject
  audience := some c.audience
  scope := some c.scope
  expiry := some c.expiry

theorem read_claims {c : Claims} (hcanonical : c.audience.Canonical)
    (hdoubles : c.audience.doubles = 0) (hdepth : c.audience.depth ≤ 126) :
    Claims.record.reader.read c.toJson.toBytes = .ok c := by
  have hstring : ∀ (s : String) (rest : Bytes), Json.Ends rest →
      Reader.text.fromText (Json.nestingLimit - 1) (utf8 (Json.string s).chars ++ rest) =
        .ok (s, rest) :=
    fun s rest _ => Reader.string_written _ _ s rest
  have hfinish : Claims.record.finish c.draft = .ok c := rfl
  -- The members in the order in which they are written; the document of the claims is one level.
  refine Record.read_written ?_ hfinish
  refine .cons _ rfl rfl (Member.takes_of (hstring c.issuer)) ?_
  refine .cons _ rfl rfl (Member.takes_of (hstring c.subject)) ?_
  refine .cons _ rfl rfl (Member.takes_of fun rest hrest =>
    Json.value_written hcanonical hdoubles (Nat.lt_succ_of_le hdepth) hrest) ?_
  refine .cons _ rfl rfl (Member.takes_of (hstring c.scope)) ?_
  exact .cons _ rfl rfl (Member.takes_of fun rest hrest =>
    Reader.word64_written c.expiry _ hrest) (.nil _)

/-! ## Verifying -/

/-- **An issued token carries the claims that it was issued for.** -/
theorem signedClaims_issue (key : Bytes) {c : Claims} (hcanonical : c.audience.Canonical)
    (hdoubles : c.audience.doubles = 0) (hdepth : c.audience.depth ≤ 126) :
    signedClaims key (issue key c) = .ok c := by
  let header := segment (.object [("alg", .string algorithm)])
  let body := segment c.toJson
  refine signedClaims_eq_ok_iff.mpr ⟨header, body, encode (signature key header body), ?_⟩
  constructor
  case framed => rw [issue, String.toList_ofList, List.append_assoc, List.cons_append]
  case undotted => exact ⟨dot_not_mem_encode _, dot_not_mem_encode _, dot_not_mem_encode _⟩
  case algorithm => exact ⟨_, rfl, read_algorithm algorithm⟩
  case signature => exact ⟨_, rfl, Digest.length_hmacSha256 _ _, rfl⟩
  case content => exact ⟨_, rfl, read_claims hcanonical hdoubles hdepth⟩

/-- **An issued token verifies under its key**: with its claims unchanged as long as it has not expired
and one of the words of its scope names the service, as expired from its expiry on, and otherwise as
one of another scope. -/
theorem issued_verifies (key : Bytes) (service : Service) (now : UInt64) {c : Claims}
    (hcanonical : c.audience.Canonical) (hdoubles : c.audience.doubles = 0)
    (hdepth : c.audience.depth ≤ 126) :
    (now < c.expiry → IsWord service.name c.scope →
        verify key (issue key c) service now = .ok c) ∧
      (c.expiry ≤ now → verify key (issue key c) service now = .error .expired) ∧
      (now < c.expiry → ¬ IsWord service.name c.scope →
        verify key (issue key c) service now = .error (.insufficientScope service c.scope)) := by
  have hverify := verify_of_signedClaims (signedClaims_issue key hcanonical hdoubles hdepth) service now
  rw [hverify, ← grants_iff]
  refine ⟨fun hexpiry hscope => ?_, fun hexpiry => ?_, fun hexpiry hscope => ?_⟩
  · rw [if_neg (UInt64.not_le.mpr hexpiry), if_pos hscope]
  · rw [if_pos hexpiry]
  · rw [if_neg (UInt64.not_le.mpr hexpiry), if_neg hscope]

/-- Claims with an audience of nested lists, escapes and a character beyond the basic plane, for two
services of which the scope names one. -/
theorem issued_verifies_nested :
    let c : Claims := {
      issuer := "nrf\"\\", subject := "\x00😀", scope := "x nudr-dr\ty", expiry := 100
      audience := .object [("", .array [.null, .array [.string "\n"]]),
        ("n", .number (.whole (Whole.ofWord 18446744073709551615)))] }
    c.audience.Canonical ∧ c.audience.doubles = 0 ∧ c.audience.depth ≤ 126 ∧
      verify [1, 2] (issue [1, 2] c) .dataRepository 99 = .ok c ∧
      verify [1, 2] (issue [1, 2] c) .dataRepository 100 = .error .expired ∧
      verify [1, 2] (issue [1, 2] c) .groupIdMap 99 =
        .error (.insufficientScope .groupIdMap c.scope) := by
  intro c
  have hcanonical : c.audience.Canonical := by
    refine ⟨by decide, ⟨?_, ?_⟩⟩
    · exact ⟨trivial, ⟨trivial, trivial⟩, trivial⟩
    · exact ⟨trivial, trivial⟩
  have hdepth : c.audience.depth ≤ 126 := by decide
  have hgranted : IsWord Service.dataRepository.name c.scope := grants_iff.mp (by decide +kernel)
  have hother : ¬ IsWord Service.groupIdMap.name c.scope := by
    rw [← grants_iff]
    decide +kernel
  have h := fun service now => issued_verifies [1, 2] service now (c := c) hcanonical rfl hdepth
  exact ⟨hcanonical, rfl, hdepth, (h _ _).1 (by decide) hgranted, (h _ _).2.1 (by decide),
    (h _ _).2.2 (by decide) hother⟩

/-! ## Presenting -/

/-- A character that a header shows and that is no blank. -/
def IsShown (c : Char) : Prop := 32 < c.toNat ∧ c.toNat < 127

instance (c : Char) : Decidable (IsShown c) := inferInstanceAs (Decidable (_ ∧ _))

theorem isShown_of_mem_encode (bs : Bytes) : ∀ c ∈ encode bs, IsShown c := by
  have hall : ∀ m : Fin 64, IsShown (digit m) := by decide
  intro c hc
  obtain ⟨m, rfl⟩ := exists_digit_of_mem_encode bs c hc
  exact hall m

theorem isShown_dot : IsShown '.' := by decide

theorem isShown_of_mem_issue (key : Bytes) (claims : Claims) :
    ∀ c ∈ (issue key claims).toList, IsShown c := by
  intro c hc
  simp only [issue, String.toList_ofList, List.mem_append, List.mem_cons] at hc
  rcases hc with (hc | rfl | hc) | rfl | hc
  · exact isShown_of_mem_encode _ c hc
  · exact isShown_dot
  · exact isShown_of_mem_encode _ c hc
  · exact isShown_dot
  · exact isShown_of_mem_encode _ c hc

theorem issue_ne_empty (key : Bytes) (claims : Claims) : issue key claims ≠ "" := by
  rw [issue, Ne, ← String.toList_eq_nil_iff, String.toList_ofList]
  simp

theorem IsShown.unblank {c : Char} (h : IsShown c) : isBlank c = false := by
  obtain ⟨hmin, hmax⟩ := h
  simp only [isBlank, Bool.or_eq_false_iff, Bool.and_eq_false_iff, decide_eq_false_iff_not,
    beq_eq_false_iff_ne]
  omega

/-- A shown text after the scheme is a token. -/
theorem bearerToken?_of_isShown {token : String} (hne : token ≠ "")
    (h : ∀ c ∈ token.toList, IsShown c) : bearerToken? ("Bearer " ++ token) = some token := by
  have hscheme : IsCaseOf "Bearer".toList schemeName := map_toLower_eq_schemeName.mp rfl
  have htrimmed : IsTrimmed token.toList := isTrimmed_of_unblank fun c hc => (h c hc).unblank
  refine bearerToken?_eq_some_iff.mpr ⟨hne, htrimmed, [], "Bearer".toList, [], [], ?_, hscheme,
    .nil, .nil, .nil⟩
  rw [String.toList_append, List.append_nil]
  rfl

/-- **A shown token that is presented is judged as a token.** -/
theorem authorize_of_isShown {p : Policy} {key : Bytes} {token : String}
    (hrequired : p.tokenRequired = true) (hkey : p.key = some key) (hne : token ≠ "")
    (h : ∀ c ∈ token.toList, IsShown c) (service : Service) (now : UInt64) :
    p.authorize ("Bearer " ++ token) service now = discard (verify key token service now) := by
  rw [authorize_of_bearerToken? hrequired (bearerToken?_of_isShown hne h), hkey]

end DataRepository.Access

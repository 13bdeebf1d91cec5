import DataRepository.Proofs.Access.Acceptance
import DataRepository.Proofs.Steps
import Mathlib.Data.List.Infix

/-! # Which header is denied for which reason

The steps of a check each have reasons of their own to deny access, and `Denied` says for all of
them together which header is denied for which. The first two reasons are about the form of the
header, the third is about the policy, and all others are about the token. -/
namespace DataRepository.Access

open Text

variable {key : Bytes} {token : String} {service : Service} {now : UInt64} {why : Denial}

/-! ## Reasons to reject a token -/

theorem readSegment_error {α : Type} {segment : Segment} {reader : Json.Reader α} {cs : List Char}
    (h : readSegment segment reader cs = .error why) : ∃ flaw, why = .malformedToken flaw := by
  unfold readSegment at h
  split at h
  · exact ⟨_, (Except.error.inj h).symm⟩
  · split at h
    · cases h
    · exact ⟨_, (Except.error.inj h).symm⟩

/-- Of a token that carries no claims the form, the algorithm or the signature is wrong. -/
theorem signedClaims_error (h : signedClaims key token = .error why) :
    (∃ flaw, why = .malformedToken flaw) ∨ (∃ a, why = .unsupportedAlgorithm a) ∨
      why = .badSignature := by
  unfold signedClaims at h
  split at h
  · obtain hheader | ⟨alg, -, h⟩ := of_bind_eq_error h
    · exact .inl (readSegment_error hheader)
    · simp only [throw, throwThe, MonadExceptOf.throw, bind, Except.bind] at h
      split at h
      · exact .inr (.inl ⟨alg, (Except.error.inj h).symm⟩)
      · split at h
        · exact .inl ⟨_, (Except.error.inj h).symm⟩
        · split at h
          · exact .inr (.inr (Except.error.inj h).symm)
          · exact .inl (readSegment_error h)
  · exact .inl ⟨_, (Except.error.inj h).symm⟩

theorem verify_of_signedClaims_error (h : signedClaims key token = .error why) (service : Service) (now : UInt64) :
    verify key token service now = .error why := by
  rw [verify, h]
  rfl

/-- What is left to judge of a token that carries claims. -/
theorem verify_of_signedClaims {c : Claims}
    (h : signedClaims key token = .ok c) (service : Service) (now : UInt64) :
    verify key token service now =
      if c.expiry ≤ now then .error .expired
      else if grants c.scope service = true then .ok c
      else .error (.insufficientScope service c.scope) := by
  rw [verify, h]
  by_cases hexpiry : c.expiry ≤ now
  · simp only [bind, Except.bind, if_pos hexpiry]
    rfl
  · simp only [bind, Except.bind, if_neg hexpiry]
    rfl

/-- A token is rejected for what it is, or for the time or the service. -/
theorem verify_error (h : verify key token service now = .error why) :
    signedClaims key token = .error why ∨
      ∃ c, signedClaims key token = .ok c ∧
        (why = .expired ∨ why = .insufficientScope service c.scope) := by
  cases hclaims : signedClaims key token with
  | error why' =>
    rw [verify_of_signedClaims_error hclaims] at h
    exact .inl h
  | ok c =>
    rw [verify_of_signedClaims hclaims] at h
    refine .inr ⟨c, rfl, ?_⟩
    split at h
    · exact .inl (Except.error.inj h).symm
    · split at h
      · cases h
      · exact .inr (Except.error.inj h).symm

/-- The reason to reject a token is about neither the header nor the policy. -/
theorem ne_of_verify_error (h : verify key token service now = .error why) :
    why ≠ .missingToken ∧ why ≠ .notBearer ∧ why ≠ .invalidKey := by
  obtain hclaims | ⟨c, -, rfl | rfl⟩ := verify_error h
  · obtain ⟨flaw, rfl⟩ | ⟨a, rfl⟩ | rfl := signedClaims_error hclaims
    · exact ⟨nofun, nofun, nofun⟩
    · exact ⟨nofun, nofun, nofun⟩
    · exact ⟨nofun, nofun, nofun⟩
  · exact ⟨nofun, nofun, nofun⟩
  · exact ⟨nofun, nofun, nofun⟩

/-! ## Reasons to deny access -/

/-- The reason for which a header does not give access, where a token is required. -/
inductive Denied (p : Policy) (header : String) (service : Service) (now : UInt64) : Denial → Prop
  | missingToken (hblank : AllBlank header.toList) : Denied p header service now .missingToken
  | notBearer (hblank : ¬ AllBlank header.toList) (hnone : ∀ token, ¬ Bears header token) :
    Denied p header service now .notBearer
  | invalidKey {token : String} (htoken : Bears header token) (hkey : p.key = none) :
    Denied p header service now .invalidKey
  | rejected {token : String} {key : Bytes} {why : Denial} (htoken : Bears header token)
    (hkey : p.key = some key) (hverify : verify key token service now = .error why) :
    Denied p header service now why

variable {p : Policy} {header : String}

theorem authorize_of_not_bears (hrequired : p.tokenRequired = true)
    (hnone : ∀ token, ¬ Bears header token) (service : Service) (now : UInt64) :
    p.authorize header service now =
      if isAllBlank header then .error .missingToken else .error .notBearer := by
  simp only [Policy.authorize, hrequired, bearerToken?_eq_none_iff.mpr hnone]
  cases isAllBlank header <;> rfl

theorem authorize_of_bears (hrequired : p.tokenRequired = true) (htoken : Bears header token)
    (service : Service) (now : UInt64) :
    p.authorize header service now = match p.key with
      | none => .error .invalidKey
      | some key => discard (verify key token service now) :=
  authorize_of_bearerToken? hrequired (bearerToken?_eq_some_iff.mpr htoken) service now

theorem discard_eq_error {α : Type} {x : Except Denial α} :
    discard x = .error why ↔ x = .error why := by
  cases x with
  | error why' =>
    exact ⟨fun h => congrArg _ (Except.error.inj h), fun h => congrArg _ (Except.error.inj h)⟩
  | ok a => exact iff_of_false nofun nofun

theorem denied_of_authorize (hrequired : p.tokenRequired = true)
    (h : p.authorize header service now = .error why) : Denied p header service now why := by
  by_cases htoken : ∃ token, Bears header token
  · obtain ⟨token, htoken⟩ := htoken
    rw [authorize_of_bears hrequired htoken] at h
    cases hkey : p.key with
    | none =>
      rw [hkey] at h
      obtain rfl := Except.error.inj h
      exact .invalidKey htoken hkey
    | some key =>
      rw [hkey] at h
      exact .rejected htoken hkey (discard_eq_error.mp h)
  · have hnone := not_exists.mp htoken
    rw [authorize_of_not_bears hrequired hnone] at h
    split at h
    · rename_i hblank
      obtain rfl := Except.error.inj h
      exact .missingToken (isAllBlank_iff.mp hblank)
    · rename_i hblank
      obtain rfl := Except.error.inj h
      exact .notBearer (mt isAllBlank_iff.mpr hblank) hnone

theorem Denied.authorize (h : Denied p header service now why) (hrequired : p.tokenRequired = true) :
    p.authorize header service now = .error why := by
  cases h with
  | missingToken hblank =>
    have hnone : ∀ token, ¬ Bears header token := fun token htoken => htoken.not_allBlank hblank
    rw [authorize_of_not_bears hrequired hnone, if_pos (isAllBlank_iff.mpr hblank)]
  | notBearer hblank hnone =>
    rw [authorize_of_not_bears hrequired hnone, if_neg (mt isAllBlank_iff.mp hblank)]
  | invalidKey htoken hkey => rw [authorize_of_bears hrequired htoken, hkey]
  | rejected htoken hkey hverify =>
    rw [authorize_of_bears hrequired htoken, hkey]
    exact discard_eq_error.mpr hverify

/-- **Access is denied where a token is required, for the one of the reasons that applies.** -/
theorem authorize_eq_error_iff :
    p.authorize header service now = .error why ↔
      p.tokenRequired = true ∧ Denied p header service now why := by
  constructor
  · intro h
    cases hrequired : p.tokenRequired with
    | true => exact ⟨rfl, denied_of_authorize hrequired h⟩
    | false =>
      rw [authorize_eq_ok.mpr (.inl hrequired)] at h
      cases h
  · intro h
    exact h.2.authorize h.1

theorem Denied.missingToken_iff :
    Denied p header service now .missingToken ↔ AllBlank header.toList := by
  constructor
  · intro h
    cases h with
    | missingToken hblank => exact hblank
    | rejected _ _ hverify => exact absurd rfl (ne_of_verify_error hverify).1
  · exact .missingToken

theorem Denied.notBearer_iff :
    Denied p header service now .notBearer ↔
      ¬ AllBlank header.toList ∧ ∀ token, ¬ Bears header token := by
  constructor
  · intro h
    cases h with
    | notBearer hblank hnone => exact ⟨hblank, hnone⟩
    | rejected _ _ hverify => exact absurd rfl (ne_of_verify_error hverify).2.1
  · intro h
    exact .notBearer h.1 h.2

theorem Denied.invalidKey_iff :
    Denied p header service now .invalidKey ↔ (∃ token, Bears header token) ∧ p.key = none := by
  constructor
  · intro h
    cases h with
    | invalidKey htoken hkey => exact ⟨⟨_, htoken⟩, hkey⟩
    | rejected _ _ hverify => exact absurd rfl (ne_of_verify_error hverify).2.2
  · intro h
    obtain ⟨⟨token, htoken⟩, hkey⟩ := h
    exact .invalidKey htoken hkey

/-! ## The form of a header -/

/-- **A header carries a token exactly if, without the blanks around it, it is the scheme in any case of
its letters, a space, and the token after any blanks**; no other header carries one, among them those
in which no character ends with the seventh byte. Where a token is required, the denial is that there
is none for the headers that are blank, and that the header is not of the scheme for the others
without this form. -/
theorem bearer_grammar (header : String) :
    (∀ token, bearerToken? header = some token ↔ Bears header token) ∧
      (bearerToken? header = none ↔ ∀ token, ¬ Bears header token) ∧
      ((∀ first rest, trimChars header.toList = first ++ rest → (utf8 first).length ≠ 7) →
        bearerToken? header = none) ∧
      ∀ (p : Policy) (service : Service) (now : UInt64), p.tokenRequired = true →
        (p.authorize header service now = .error .missingToken ↔ AllBlank header.toList) ∧
        (p.authorize header service now = .error .notBearer ↔
          ¬ AllBlank header.toList ∧ ∀ token, ¬ Bears header token) := by
  refine ⟨fun token => bearerToken?_eq_some_iff, bearerToken?_eq_none_iff, ?_, ?_⟩
  · intro hbytes
    refine bearerToken?_eq_none_iff.mpr fun token htoken => ?_
    obtain ⟨first, rest, htrim, hseven⟩ := htoken.exists_beginning
    exact hbytes first rest htrim hseven
  · intro p service now hrequired
    rw [authorize_eq_error_iff, authorize_eq_error_iff, Denied.missingToken_iff, Denied.notBearer_iff]
    exact ⟨and_iff_right hrequired, and_iff_right hrequired⟩

/-- The scheme before a no-break space, of which the seventh byte is the first of two, and a token with
a blank inside between other blanks. -/
theorem bearer_grammar_unspaced :
    let p : Policy := ⟨"udr-1", true, some [1, 2]⟩
    bearerToken? "bearer\u00a0t" = none ∧
      p.authorize "bearer\u00a0t" .dataRepository 0 = .error .notBearer ∧
      p.authorize "\u2003\t" .dataRepository 0 = .error .missingToken ∧
      Bears "\u3000BEARER \ta b\u00a0" "a b" := by
  intro p
  obtain ⟨-, -, hbytes, hdenied⟩ := bearer_grammar "bearer\u00a0t"
  have hcut : ∀ first ∈ (trimChars "bearer\u00a0t".toList).inits, (utf8 first).length ≠ 7 := by decide
  have hnone : bearerToken? "bearer\u00a0t" = none := hbytes fun first rest htrim =>
    hcut first ((List.mem_inits _ _).mpr ⟨rest, htrim.symm⟩)
  have hblank : ¬ AllBlank "bearer\u00a0t".toList := mt isAllBlank_iff.mpr (by decide)
  refine ⟨hnone, (hdenied p _ _ rfl).2.mpr ⟨hblank, bearerToken?_eq_none_iff.mp hnone⟩, ?_, ?_⟩
  · obtain ⟨-, -, -, hdenied⟩ := bearer_grammar "\u2003\t"
    exact (hdenied p _ _ rfl).1.mpr (isAllBlank_iff.mp (by decide))
  · exact ((bearer_grammar "\u3000BEARER \ta b\u00a0").1 "a b").mp (by decide)

end DataRepository.Access

import DataRepository.Proofs.Access.Issued
import DataRepository.Settings

/-! # The token key of loaded settings

Settings are checked once, when they are loaded, and the policy that is made of them keeps what the
check found: either no token is required, or there is a key that is not blank. So the check of a
header never lacks a key, and what it lets through is signed under the one that was loaded. -/
namespace DataRepository.Settings

open Access Text

variable {freshId : String} {file : File} {vars : List (String × String)} {s : Settings}

theorem hasTokenKey_iff : s.hasTokenKey = true ↔ ∃ key, s.tokenKey = some key ∧ ¬ AllBlank key.toList := by
  unfold hasTokenKey
  cases s.tokenKey with
  | none => exact iff_of_false nofun nofun
  | some key =>
    rw [Bool.not_eq_true', Bool.eq_false_iff, Ne, isAllBlank_iff]
    constructor
    · intro h
      exact ⟨key, rfl, h⟩
    · intro h
      obtain ⟨key', hkey, hblank⟩ := h
      obtain rfl := Option.some.inj hkey
      exact hblank

/-- Where a token is required of the consumers, settings without a flaw have a key. -/
theorem hasTokenKey_of_flaw? (h : s.flaw? = none) (hrequired : s.tokenRequired = true) :
    s.hasTokenKey = true := by
  by_contra hkey
  unfold flaw? at h
  split at h
  · cases h
  · split at h
    · cases h
    · split at h
      · cases h
      · rw [if_pos ⟨hrequired, by simpa using hkey⟩] at h
        cases h

theorem exists_tokenKey_of_load (h : load freshId file vars = .ok s)
    (hrequired : s.tokenRequired = true) :
    ∃ key, s.tokenKey = some key ∧ ¬ AllBlank key.toList :=
  hasTokenKey_iff.mp (hasTokenKey_of_flaw? (flaw?_of_load h) hrequired)

theorem policy_key {key : String} (h : s.tokenKey = some key) : s.policy.key = some (Text.bytes key) := by
  rw [policy, h]
  rfl

/-- **The policy of loaded settings never lacks a key, and if a token is required it gives access to a
header exactly if this carries a token that is signed under the loaded key, which is not blank, has not
expired and names the service in its scope.** -/
theorem authorize_of_load (h : load freshId file vars = .ok s) (header : String) (service : Service)
    (now : UInt64) :
    s.policy.authorize header service now ≠ .error .invalidKey ∧
      (s.tokenRequired = true → ∃ key, s.tokenKey = some key ∧ ¬ AllBlank key.toList ∧
        (s.policy.authorize header service now = .ok () ↔
          ∃ token c, Bears header token ∧
            (∃ first second third, Signed (Text.bytes key) token c first second third) ∧
            now < c.expiry ∧ IsWord service.name c.scope)) := by
  constructor
  · intro hdenied
    obtain ⟨hrequired, hreason⟩ := authorize_eq_error_iff.mp hdenied
    obtain ⟨key, hkey, -⟩ := exists_tokenKey_of_load h hrequired
    obtain ⟨-, hnone⟩ := Denied.invalidKey_iff.mp hreason
    rw [policy_key hkey] at hnone
    cases hnone
  · intro hrequired
    obtain ⟨key, hkey, hblank⟩ := exists_tokenKey_of_load h hrequired
    refine ⟨key, hkey, hblank, authorize_eq_ok.trans ?_⟩
    constructor
    · intro hallowed
      obtain hfree | ⟨token, key', htoken, hkey', c, hverify⟩ := hallowed
      · rw [show s.policy.tokenRequired = s.tokenRequired from rfl, hrequired] at hfree
        cases hfree
      · rw [policy_key hkey] at hkey'
        obtain rfl := Option.some.inj hkey'
        obtain ⟨hsigned, hexpiry, hscope⟩ := verify_eq_ok.mp hverify
        exact ⟨token, c, bearerToken?_eq_some_iff.mp htoken, signedClaims_eq_ok_iff.mp hsigned, hexpiry,
          grants_iff.mp hscope⟩
    · intro hcarried
      obtain ⟨token, c, htoken, hsigned, hexpiry, hscope⟩ := hcarried
      have hverify : verify (Text.bytes key) token service now = .ok c :=
        verify_eq_ok.mpr ⟨signedClaims_eq_ok_iff.mpr hsigned, hexpiry, grants_iff.mpr hscope⟩
      exact .inr ⟨token, Text.bytes key, bearerToken?_eq_some_iff.mpr htoken, policy_key hkey, c,
        hverify⟩

/-- A key in the file, the requirement in the environment, and a header with a token that was issued
under the key. -/
theorem authorize_of_load_issued :
    let s : Settings := { instanceId := "udr-1", tokenRequired := true, tokenKey := some "ключ nrf" }
    let token := issue (Text.bytes "ключ nrf") ⟨"nrf", "amf", .string "udr", "nudr-dr", 100⟩
    load "udr-1" (.text "nrf_token_key: ключ nrf\n") [("UDR_OAUTH2_REQUIRED", "true")] = .ok s ∧
      s.policy.authorize ("Bearer " ++ token) .dataRepository 99 = .ok () ∧
      s.policy.authorize ("Bearer " ++ token) .dataRepository 100 ≠ .error .invalidKey := by
  intro s token
  let c : Claims := ⟨"nrf", "amf", .string "udr", "nudr-dr", 100⟩
  have hload : load "udr-1" (.text "nrf_token_key: ключ nrf\n") [("UDR_OAUTH2_REQUIRED", "true")] =
      .ok s := by decide +kernel
  have hclaims : signedClaims (Text.bytes "ключ nrf") token = .ok c :=
    signedClaims_issue (Text.bytes "ключ nrf") (c := c) trivial rfl (Nat.zero_le 126)
  have htoken : Bears ("Bearer " ++ token) token :=
    bearerToken?_eq_some_iff.mp (bearerToken?_of_isShown (issue_ne_empty _ c) (isShown_of_mem_issue _ c))
  have hscope : IsWord Service.dataRepository.name c.scope := grants_iff.mp (by decide +kernel)
  obtain ⟨key, hkey, -, hallowed⟩ := (authorize_of_load hload ("Bearer " ++ token) .dataRepository 99).2 rfl
  obtain rfl : "ключ nrf" = key := Option.some.inj hkey
  refine ⟨hload, hallowed.mpr ⟨token, c, htoken, ?_, by decide, hscope⟩, ?_⟩
  · exact signedClaims_eq_ok_iff.mp hclaims
  · exact (authorize_of_load hload ("Bearer " ++ token) .dataRepository 100).1

end DataRepository.Settings

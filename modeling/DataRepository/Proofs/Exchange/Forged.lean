import DataRepository.Proofs.Access.Reports
import DataRepository.Proofs.Access.Verdicts
import DataRepository.Proofs.Exchange.Alike

/-! # Requests with forged tokens

A token whose signature does not verify is refused before its claims are read. So two
requests for the same thing that present such tokens, with the same header and the same
signature, get one response, whatever the claims are, at whatever times they come and
whatever is stored (`forged_alike`). -/
namespace DataRepository

open Http (Request)
open Access (Denial Gate Verifies bearerToken? joined verify)
open Text.Base64Url (encode)

variable {key : Bytes} {header claims claims' sign : List Char}

/-- The gate gives one answer to tokens that are refused with one error at all times. -/
theorem Access.Gate.refusal?_of_refused {g : Gate} {r r' : Request} {token token' : String}
    (hkey : g.policy.key = none ∨ g.policy.key = some key)
    (htoken : bearerToken? r.credential = some token)
    (htoken' : bearerToken? r'.credential = some token') {why : Denial}
    (h : ∀ service now, verify key token service now = .error why ∧
      verify key token' service now = .error why) (now now' : UInt64) :
    g.refusal? now r = g.refusal? now' r' := by
  have hcheck : g.check r now = g.check r' now' := by
    cases hrequired : g.policy.tokenRequired with
    | false => rw [g.check_of_not_required hrequired, g.check_of_not_required hrequired]
    | true =>
      rw [Gate.check, Gate.check, Access.authorize_of_bearerToken? hrequired htoken,
        Access.authorize_of_bearerToken? hrequired htoken']
      rcases hkey with hkey | hkey
      · rw [hkey]
      · simp only [hkey, (h _ _).1, (h _ _).2]
  simp only [Gate.refusal?, hcheck]

namespace Exchange

/-- **Nothing tells the claims of a token that is not signed**: verifying it gives an error in which
neither the claims nor the service nor the time counts, and a request that presents it gets the
response of a request for the same thing that presents other claims with the same header and the same
signature. -/
theorem forged_alike (hclaims : '.' ∉ claims) (hclaims' : '.' ∉ claims')
    (hforged : ¬ Verifies key header claims sign) (hforged' : ¬ Verifies key header claims' sign) :
    (∃ why, ∀ service now,
        verify key (joined header claims sign) service now = .error why ∧
          verify key (joined header claims' sign) service now = .error why) ∧
      ∀ (g : Gate) (now now' : UInt64) (r r' : Request),
        g.policy.key = none ∨ g.policy.key = some key →
        bearerToken? r.credential = some (joined header claims sign) →
        bearerToken? r'.credential = some (joined header claims' sign) →
        r.SameCall r' →
        ∀ s, serve g now r s = serve g now' r' s := by
  obtain ⟨why, hwhy⟩ := Access.exists_flaw key header sign
  have hverify : ∀ service now,
      verify key (joined header claims sign) service now = .error why ∧
        verify key (joined header claims' sign) service now = .error why := fun service now =>
    ⟨Access.verify_of_signedClaims_error (hwhy claims hclaims hforged) service now,
      Access.verify_of_signedClaims_error (hwhy claims' hclaims' hforged') service now⟩
  refine ⟨⟨why, hverify⟩, fun g now now' r r' hkey htoken htoken' hcall s => ?_⟩
  exact serve_of_sameCall hcall (Gate.refusal?_of_refused hkey htoken htoken' hverify now now') s

/-- A token that was signed under another key, and the same with an empty object for its claims. -/
theorem forged_alike_otherKey :
    let header := Access.segment (.object [("alg", .string Access.algorithm)])
    let claims := Access.segment (Access.Claims.toJson ⟨"nrf", "amf", .string "udr", "nudr-dr", 100⟩)
    let claims' := Access.segment (.object [])
    let sign := encode (Access.signature [3] header claims)
    let g : Gate := ⟨.dataRepository, ⟨"udr-1", true, some [1, 2]⟩⟩
    '.' ∉ claims ∧ '.' ∉ claims' ∧
      ¬ Verifies [1, 2] header claims sign ∧ ¬ Verifies [1, 2] header claims' sign ∧
      (∃ why, ∀ service now, verify [1, 2] (joined header claims sign) service now = .error why ∧
        verify [1, 2] (joined header claims' sign) service now = .error why) ∧
      ∀ s, serve g 7 (Access.presenting (joined header claims sign)) s =
        serve g 200 (Access.presenting (joined header claims' sign)) s := by
  intro header claims claims' sign g
  have hforged : ¬ Verifies [1, 2] header claims sign := by decide +kernel
  have hforged' : ¬ Verifies [1, 2] header claims' sign := by decide +kernel
  have htoken : ∀ bs, bearerToken? (Access.presenting (joined header (encode bs) sign)).credential =
      some (joined header (encode bs) sign) := fun bs =>
    Access.bearerToken?_presenting (Access.joined_ne_empty _ _ _) (Access.isShown_of_mem_joined _ _ _)
  have hcall : ∀ token token', (Access.presenting token).SameCall (Access.presenting token') :=
    fun _ _ => ⟨rfl, rfl, rfl⟩
  have hkey : g.policy.key = none ∨ g.policy.key = some [1, 2] := .inr rfl
  have hdot := Access.dot_not_mem_encode
  -- For any octets as claims, so that no step evaluates the ones above.
  have halike : ∀ bs bs', ¬ Verifies [1, 2] header (encode bs) sign →
      ¬ Verifies [1, 2] header (encode bs') sign →
      (∃ why, ∀ service now,
        verify [1, 2] (joined header (encode bs) sign) service now = .error why ∧
          verify [1, 2] (joined header (encode bs') sign) service now = .error why) ∧
      ∀ s, serve g 7 (Access.presenting (joined header (encode bs) sign)) s =
        serve g 200 (Access.presenting (joined header (encode bs') sign)) s := fun bs bs' h h' =>
    have ⟨hverify, hserve⟩ := forged_alike (hdot bs) (hdot bs') h h'
    ⟨hverify, hserve g 7 200 _ _ hkey (htoken bs) (htoken bs') (hcall _ _)⟩
  exact ⟨hdot _, hdot _, hforged, hforged', halike _ _ hforged hforged'⟩

end Exchange

end DataRepository

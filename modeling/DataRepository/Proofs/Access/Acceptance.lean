import DataRepository.Access.Policy
import DataRepository.Proofs.Access.Credentials
import DataRepository.Proofs.Text.Split
import DataRepository.Proofs.Text.Words
import Mathlib.Data.List.TakeWhile

/-! # Which tokens are accepted

`verify` splits, decodes and compares step by step. `Signed` says what the three
segments of a token have to be, with no step in it, and the two agree on every
text. -/
namespace DataRepository.Access

open Text Text.Base64Url

/-- The segments of a token that carries the claims `c` under the key: the
header names the algorithm, the signature is the code of the two segments before
it as they stand in the token, and nothing but canonical base64url is read. -/
structure Signed (key : Bytes) (token : String) (c : Claims) (header claims sign : List Char) :
    Prop where
  framed : token.toList = header ++ '.' :: (claims ++ '.' :: sign)
  undotted : '.' ∉ header ∧ '.' ∉ claims ∧ '.' ∉ sign
  algorithm : ∃ text, header = encode text ∧ algorithmRecord.reader.read text = .ok "HS256"
  signature : ∃ mac, sign = encode mac ∧ mac.length = 32 ∧
    mac = Digest.hmacSha256 key (utf8 (header ++ '.' :: claims))
  content : ∃ text, claims = encode text ∧ Claims.record.reader.read text = .ok c

/-! ## The steps of a check -/

/-- A text has one split into three segments, if it has two dots. -/
theorem splitOn_eq_three_iff {cs header claims sign : List Char} :
    cs.splitOn '.' = [header, claims, sign] ↔
      cs = header ++ '.' :: (claims ++ '.' :: sign) ∧
        '.' ∉ header ∧ '.' ∉ claims ∧ '.' ∉ sign := by
  rw [splitOn_eq_cons_iff (by simp)]
  simp only [splitOn_eq_cons_iff (List.cons_ne_nil sign []), splitOn_eq_singleton_iff]
  constructor
  · rintro ⟨_, rfl, hh, _, rfl, hc, rfl, hs⟩
    exact ⟨rfl, hh, hc, hs⟩
  · rintro ⟨rfl, hh, hc, hs⟩
    exact ⟨_, rfl, hh, _, rfl, hc, rfl, hs⟩

theorem decode?_eq_some_iff {cs : List Char} {bs : Bytes} :
    decode? cs = some bs ↔ cs = encode bs :=
  ⟨fun h => (encode_of_decode? h).symm, fun h => h ▸ decode?_encode bs⟩

theorem readSegment_eq_ok_iff {α : Type} {s : Segment} {reader : Json.Reader α} {cs : List Char}
    {v : α} :
    readSegment s reader cs = .ok v ↔ ∃ text, cs = encode text ∧ reader.read text = .ok v := by
  simp only [← decode?_eq_some_iff, readSegment]
  cases decode? cs with
  | none => simp
  | some bytes => cases hr : reader.read bytes <;> simp [hr]

/-- A token that carries claims is one whose three segments do. -/
theorem signedClaims_eq_ok_iff {key : Bytes} {token : String} {c : Claims} :
    signedClaims key token = .ok c ↔ ∃ header claims sign, Signed key token c header claims sign := by
  constructor
  · intro h
    unfold signedClaims at h
    split at h
    · rename_i header claims sign hsplit
      obtain ⟨framed, undotted⟩ := splitOn_eq_three_iff.mp hsplit
      cases hh : readSegment .header algorithmRecord.reader header with
      | error why => rw [hh] at h; cases h
      | ok alg =>
        rw [hh] at h
        by_cases ha : alg = Access.algorithm
        · cases hs : decode? sign with
          | none => simp [ha, hs, bind, Except.bind] at h
          | some mac =>
            by_cases hm : mac = Access.signature key header claims
            · have hc : readSegment .claims Claims.record.reader claims = .ok c := by
                simpa [ha, hs, hm, bind, Except.bind, pure, Except.pure] using h
              refine ⟨header, claims, sign, framed, undotted, ?_, ?_, readSegment_eq_ok_iff.mp hc⟩
              · exact readSegment_eq_ok_iff.mp (ha ▸ hh)
              · exact ⟨mac, decode?_eq_some_iff.mp hs, hm ▸ Digest.length_hmacSha256 _ _, hm⟩
            · simp [ha, hs, hm, bind, Except.bind] at h
        · simp [ha, bind, Except.bind] at h
    · cases h
  · rintro ⟨header, claims, sign, framed, undotted, halg, ⟨mac, hsign, -, hmac⟩, hcontent⟩
    have hh := readSegment_eq_ok_iff (s := .header).mpr halg
    have hc := readSegment_eq_ok_iff (s := .claims).mpr hcontent
    have hs := decode?_eq_some_iff.mpr hsign
    simp only [signedClaims, splitOn_eq_three_iff.mpr ⟨framed, undotted⟩, hh, hs]
    rw [hmac]
    simpa [Access.algorithm, Access.signature, bind, Except.bind, pure, Except.pure] using hc

theorem grants_iff {scope : String} {service : Service} :
    grants scope service = true ↔ IsWord service.name scope := by
  rw [grants, List.contains_iff_mem, mem_words_iff]

theorem verify_eq_ok {key : Bytes} {token : String} {service : Service} {now : UInt64}
    {c : Claims} :
    verify key token service now = .ok c ↔
      signedClaims key token = .ok c ∧ now < c.expiry ∧ grants c.scope service = true := by
  unfold verify
  cases signedClaims key token with
  | error why => simp [bind, Except.bind]
  | ok c' =>
    by_cases he : c'.expiry ≤ now
    · simp only [bind, Except.bind, he, if_true, Except.ok.injEq]
      constructor
      · intro h; cases h
      · rintro ⟨rfl, hlt, -⟩; exact absurd hlt (UInt64.not_lt.mpr he)
    · by_cases hg : grants c'.scope service = true
      · simp only [bind, Except.bind, he, if_false, hg, if_true, pure, Except.pure,
          Except.ok.injEq]
        constructor
        · rintro rfl; exact ⟨rfl, UInt64.not_le.mp he, hg⟩
        · exact And.left
      · simp only [bind, Except.bind, he, if_false, hg, Except.ok.injEq]
        constructor
        · intro h; cases h
        · rintro ⟨rfl, -, hg'⟩; exact absurd hg' hg

/-! ## The decision on a header -/

/-- What carries a token is not blank. -/
theorem isAllBlank_of_bearerToken? {header token : String}
    (h : bearerToken? header = some token) : isAllBlank header = false :=
  Bool.eq_false_iff.mpr (mt isAllBlank_iff.mp (bearerToken?_eq_some_iff.mp h).not_allBlank)

/-- A header that carries a token is judged by the token. -/
theorem authorize_of_bearerToken? {p : Policy} {header token : String}
    (hrequired : p.tokenRequired = true) (h : bearerToken? header = some token) (service : Service)
    (now : UInt64) :
    p.authorize header service now = match p.key with
      | none => .error .invalidKey
      | some key => discard (verify key token service now) := by
  simp only [Policy.authorize, hrequired, h, isAllBlank_of_bearerToken? h]
  cases p.key <;> rfl

theorem authorize_eq_ok {p : Policy} {header : String} {service : Service} {now : UInt64} :
    p.authorize header service now = .ok () ↔
      p.tokenRequired = false ∨ ∃ token key, bearerToken? header = some token ∧
        p.key = some key ∧ ∃ c, verify key token service now = .ok c := by
  unfold Policy.authorize
  cases hreq : p.tokenRequired with
  | false => simp [pure, Except.pure]
  | true =>
    cases ht : bearerToken? header with
    | none => cases isAllBlank header <;> simp [bind, Except.bind]
    | some token =>
      simp only [isAllBlank_of_bearerToken? ht]
      cases p.key with
      | none => simp
      | some key =>
        cases hv : verify key token service now <;>
          simp [hv, discard, Functor.mapConst, Except.map]

/-- **A token is accepted exactly if it is signed under the key, has not expired
and names the service in its scope, and a header gives access exactly if no token
is required or it carries one that is accepted under the configured key.** -/
theorem accepted_iff_signed :
    (∀ (key : Bytes) (token : String) (service : Service) (now : UInt64) (c : Claims),
      verify key token service now = .ok c ↔
        (∃ header claims sign, Signed key token c header claims sign) ∧
          now < c.expiry ∧ IsWord service.name c.scope) ∧
    ∀ (p : Policy) (header : String) (service : Service) (now : UInt64),
      p.authorize header service now = .ok () ↔
        p.tokenRequired = false ∨ ∃ token key, bearerToken? header = some token ∧
          p.key = some key ∧ ∃ c, verify key token service now = .ok c := by
  constructor
  · intro key token service now c
    rw [verify_eq_ok, signedClaims_eq_ok_iff, grants_iff]
  · intro p header service now
    exact authorize_eq_ok

end DataRepository.Access

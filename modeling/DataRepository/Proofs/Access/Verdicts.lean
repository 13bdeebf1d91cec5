import DataRepository.Proofs.Access.Issued

/-! # What the verdict on a token depends on

The checks of a token stand in an order. The claims are read after the signature has been
found right, so a token that is not signed gets the same error whatever its claims are. The
signature is compared as a whole and has one written form, so the first two segments leave
no choice for the third. The time comes last but one and in one comparison, so it parts the
times of a token in two. -/
namespace DataRepository.Access

open Text Text.Base64Url

variable {key : Bytes} {token : String} {service : Service} {header claims sign : List Char}

/-! ## Tokens that are not signed -/

def joined (header claims sign : List Char) : String :=
  String.ofList (header ++ '.' :: (claims ++ '.' :: sign))

/-- The third segment is the signature of the first two under the key. -/
def Verifies (key : Bytes) (header claims sign : List Char) : Prop :=
  sign = encode (signature key header claims)

instance : Decidable (Verifies key header claims sign) := inferInstanceAs (Decidable (_ = _))

theorem joined_ne_empty (header claims sign : List Char) : joined header claims sign ≠ "" := by
  rw [joined, Ne, ← String.toList_eq_nil_iff, String.toList_ofList]
  simp

theorem isShown_of_mem_joined (header claims sign : Bytes) :
    ∀ c ∈ (joined (encode header) (encode claims) (encode sign)).toList, IsShown c := by
  intro c hc
  simp only [joined, String.toList_ofList, List.mem_append, List.mem_cons] at hc
  rcases hc with hc | rfl | hc | rfl | hc
  · exact isShown_of_mem_encode _ c hc
  · exact isShown_dot
  · exact isShown_of_mem_encode _ c hc
  · exact isShown_dot
  · exact isShown_of_mem_encode _ c hc

theorem splitOn_joined (hheader : '.' ∉ header) (hclaims : '.' ∉ claims) (hsign : '.' ∉ sign) :
    (joined header claims sign).toList.splitOn '.' = [header, claims, sign] := by
  rw [joined, String.toList_ofList]
  exact splitOn_eq_three_iff.mpr ⟨rfl, hheader, hclaims, hsign⟩

/-- Segments with a dot in them make no token. -/
theorem splitOn_joined_ne (hdots : '.' ∈ header ∨ '.' ∈ sign) (a b c : List Char) :
    (joined header claims sign).toList.splitOn '.' ≠ [a, b, c] := by
  intro hsplit
  obtain ⟨hframed, ha, hb, hc⟩ := splitOn_eq_three_iff.mp hsplit
  have hcount : (header ++ '.' :: (claims ++ '.' :: sign)).count '.' = 2 := by
    rw [joined, String.toList_ofList] at hframed
    simp [hframed, List.count_eq_zero_of_not_mem ha, List.count_eq_zero_of_not_mem hb,
      List.count_eq_zero_of_not_mem hc]
  have hmore : 0 < header.count '.' + sign.count '.' := by
    rcases hdots with h | h
    · exact Nat.add_pos_left (List.count_pos_iff.mpr h) _
    · exact Nat.add_pos_right _ (List.count_pos_iff.mpr h)
  simp only [List.count_append, List.count_cons_self] at hcount
  omega

/-- **Header and signature alone decide what is wrong with a token that is not signed.** -/
theorem exists_flaw (key : Bytes) (header sign : List Char) : ∃ why, ∀ claims, '.' ∉ claims →
    ¬ Verifies key header claims sign →
      signedClaims key (joined header claims sign) = .error why := by
  by_cases hdots : '.' ∈ header ∨ '.' ∈ sign
  · refine ⟨.malformedToken .parts, fun claims _ _ => ?_⟩
    unfold signedClaims
    split
    · rename_i hsplit
      exact absurd hsplit (splitOn_joined_ne hdots _ _ _)
    · rfl
  · obtain ⟨hheader, hsign⟩ := not_or.mp hdots
    -- The error is found before the claims are looked at, one check after the other.
    cases hread : readSegment .header algorithmRecord.reader header with
    | error why =>
      refine ⟨why, fun claims hclaims _ => ?_⟩
      simp [signedClaims, splitOn_joined hheader hclaims hsign, hread, bind, Except.bind]
    | ok alg =>
      by_cases halg : alg = algorithm
      · cases hdecode : decode? sign with
        | none =>
          refine ⟨.malformedToken .signatureEncoding, fun claims hclaims _ => ?_⟩
          simp [signedClaims, splitOn_joined hheader hclaims hsign, hread, halg, hdecode, bind,
            Except.bind, throw, throwThe, MonadExceptOf.throw]
        | some mac =>
          refine ⟨.badSignature, fun claims hclaims hforged => ?_⟩
          have hmac : mac ≠ signature key header claims := by
            rintro rfl
            exact hforged (decode?_eq_some_iff.mp hdecode)
          simp [signedClaims, splitOn_joined hheader hclaims hsign, hread, halg, hdecode, hmac, bind,
            Except.bind, throw, throwThe, MonadExceptOf.throw]
      · refine ⟨.unsupportedAlgorithm alg, fun claims hclaims _ => ?_⟩
        simp [signedClaims, splitOn_joined hheader hclaims hsign, hread, halg, bind, Except.bind,
          throw, throwThe, MonadExceptOf.throw]

/-! ## The last segment -/

theorem take_splitOn (hheader : '.' ∉ header) (hclaims : '.' ∉ claims) (rest : List Char) :
    ((header ++ '.' :: (claims ++ '.' :: rest)).splitOn '.').take 2 = [header, claims] := by
  rw [List.splitOn_append_cons_self_of_not_mem hheader,
    List.splitOn_append_cons_self_of_not_mem hclaims]
  rfl

theorem Signed.take_splitOn {c : Claims} (h : Signed key token c header claims sign) :
    (token.toList.splitOn '.').take 2 = [header, claims] := by
  rw [h.framed]
  exact Access.take_splitOn h.undotted.1 h.undotted.2.1 sign

/-- What is written behind a token changes neither of its first two segments. -/
theorem Signed.take_splitOn_append {c : Claims} (h : Signed key token c header claims sign)
    (ending : String) :
    ((token ++ ending).toList.splitOn '.').take 2 = (token.toList.splitOn '.').take 2 := by
  have happend : (token ++ ending).toList =
      header ++ '.' :: (claims ++ '.' :: (sign ++ ending.toList)) := by
    rw [String.toList_append, h.framed]
    simp only [List.append_assoc, List.cons_append]
  rw [h.take_splitOn, happend]
  exact Access.take_splitOn h.undotted.1 h.undotted.2.1 _

/-- A signature has one written form: header and claims leave no choice for the rest of a token. -/
theorem Signed.eq {token' : String} {c c' : Claims} {sign' : List Char}
    (h : Signed key token c header claims sign) (h' : Signed key token' c' header claims sign') :
    token' = token := by
  obtain ⟨mac, hsign, -, hmac⟩ := h.signature
  obtain ⟨mac', hsign', -, hmac'⟩ := h'.signature
  have htoken : token'.toList = token.toList := by
    rw [h.framed, h'.framed, hsign, hsign', hmac, hmac']
  exact String.toList_inj.mp htoken

theorem exists_signed_of_verify {now : UInt64} {c : Claims}
    (h : verify key token service now = .ok c) :
    ∃ header claims sign, Signed key token c header claims sign :=
  signedClaims_eq_ok_iff.mp (verify_eq_ok.mp h).1

/-- **No other token is accepted in the place of an accepted one**: of all texts that agree with it in
the first two segments it is the only one that is accepted under the key, for any service and at any
time. -/
theorem accepted_alone {now : UInt64} {c : Claims} (h : verify key token service now = .ok c)
    {token' : String}
    (hsame : (token'.toList.splitOn '.').take 2 = (token.toList.splitOn '.').take 2) :
    (∃ service' now' c', verify key token' service' now' = .ok c') ↔ token' = token := by
  constructor
  · rintro ⟨service', now', c', h'⟩
    obtain ⟨header, claims, sign, hsigned⟩ := exists_signed_of_verify h
    obtain ⟨header', claims', sign', hsigned'⟩ := exists_signed_of_verify h'
    rw [hsigned.take_splitOn, hsigned'.take_splitOn] at hsame
    cases hsame
    exact hsigned.eq hsigned'
  · rintro rfl
    exact ⟨service, now, c, h⟩

/-- An issued token, and texts that go on after it with a padding character, a digit, a dot and one
more segment. -/
theorem accepted_alone_padded :
    let token := issue [1, 2] ⟨"nrf", "amf", .string "udr", "nudr-dr nudr-group-id-map", 100⟩
    (∃ c, verify [1, 2] token .dataRepository 99 = .ok c) ∧
      ∀ ending ∈ ["=", "A", ".", ".e30"],
        ((token ++ ending).toList.splitOn '.').take 2 = (token.toList.splitOn '.').take 2 ∧
          ¬ ∃ service now c, verify [1, 2] (token ++ ending) service now = .ok c := by
  intro token
  let c : Claims := ⟨"nrf", "amf", .string "udr", "nudr-dr nudr-group-id-map", 100⟩
  have hclaims : signedClaims [1, 2] token = .ok c :=
    signedClaims_issue [1, 2] (c := c) trivial rfl (Nat.zero_le 126)
  have h : verify [1, 2] token .dataRepository 99 = .ok c :=
    verify_eq_ok.mpr ⟨hclaims, by decide, by decide +kernel⟩
  refine ⟨⟨c, h⟩, fun ending hending => ?_⟩
  obtain ⟨header, claims, sign, hsigned⟩ := exists_signed_of_verify h
  have hsame := hsigned.take_splitOn_append ending
  have hne : token ++ ending ≠ token := by
    rw [Ne, String.append_eq_left_iff]
    rintro rfl
    exact absurd hending (by decide)
  exact ⟨hsame, mt (accepted_alone h hsame).mp hne⟩

/-! ## The time -/

/-- The verdict on a token that carries claims is one verdict before the expiry and one after it. -/
theorem exists_verdict {c : Claims} (h : signedClaims key token = .ok c) (service : Service) :
    ∃ verdict : Except Denial Claims,
      (verdict = .ok c ∨ verdict = .error (.insufficientScope service c.scope)) ∧
      ∀ now, verify key token service now = if now < c.expiry then verdict else .error .expired := by
  have hverify : ∀ verdict : Except Denial Claims,
      (if grants c.scope service = true then .ok c
        else .error (.insufficientScope service c.scope)) = verdict →
      ∀ now, verify key token service now = if now < c.expiry then verdict else .error .expired := by
    rintro verdict rfl now
    rw [verify_of_signedClaims h]
    by_cases hexpiry : c.expiry ≤ now
    · rw [if_pos hexpiry, if_neg (UInt64.not_lt.mpr hexpiry)]
    · rw [if_neg hexpiry, if_pos (UInt64.not_le.mp hexpiry)]
  by_cases hscope : grants c.scope service = true
  · exact ⟨.ok c, .inl rfl, hverify _ (if_pos hscope)⟩
  · exact ⟨.error (.insufficientScope service c.scope), .inr rfl, hverify _ (if_neg hscope)⟩

/-- A verdict does not depend on the time, or it turns at the expiry of the claims. -/
theorem verdict_cases (key : Bytes) (token : String) (service : Service) :
    (∃ why, ∀ now, verify key token service now = .error why) ∨
      ∃ c verdict, (verdict = .ok c ∨ verdict = .error (.insufficientScope service c.scope)) ∧
        ∀ now, verify key token service now =
          if now < c.expiry then verdict else .error .expired := by
  cases h : signedClaims key token with
  | error why => exact .inl ⟨why, verify_of_signedClaims_error h service⟩
  | ok c => exact .inr ⟨c, exists_verdict h service⟩

theorem accepted_before {now now' : UInt64} {c : Claims} (hle : now ≤ now')
    (h : verify key token service now' = .ok c) : verify key token service now = .ok c := by
  obtain ⟨why, hverify⟩ | ⟨c', verdict, -, hverify⟩ := verdict_cases key token service
  · rw [hverify] at h
    cases h
  · rw [hverify] at h ⊢
    by_cases hexpiry : now' < c'.expiry
    · rw [if_pos hexpiry] at h
      rw [if_pos (UInt64.lt_of_le_of_lt hle hexpiry)]
      exact h
    · rw [if_neg hexpiry] at h
      cases h

theorem expired_after {now now' : UInt64} (hle : now ≤ now')
    (h : verify key token service now = .error .expired) :
    verify key token service now' = .error .expired := by
  obtain ⟨why, hverify⟩ | ⟨c, verdict, hverdict, hverify⟩ := verdict_cases key token service
  · rw [hverify] at h ⊢
    exact h
  · rw [hverify] at h ⊢
    have hexpiry : ¬ now < c.expiry := by
      intro hlt
      rw [if_pos hlt] at h
      rcases hverdict with rfl | rfl <;> cases h
    exact if_neg fun hlt => hexpiry (UInt64.lt_of_le_of_lt hle hlt)

theorem error_always {why : Denial} (hexpired : why ≠ .expired)
    (hscope : ∀ required granted, why ≠ .insufficientScope required granted) {now : UInt64}
    (h : verify key token service now = .error why) (now' : UInt64) :
    verify key token service now' = .error why := by
  obtain ⟨why', hverify⟩ | ⟨c, verdict, hverdict, hverify⟩ := verdict_cases key token service
  · rw [hverify] at h ⊢
    exact h
  · exfalso
    rw [hverify] at h
    split at h
    · rcases hverdict with rfl | rfl
      · cases h
      · exact hscope _ _ (Except.error.inj h).symm
    · exact hexpired (Except.error.inj h).symm

/-- **Time parts the verdicts on a token once**: what is accepted was accepted before with the same
claims, what has expired stays so, every error that is not about the expiry or the scope is the error
at all times, and the verdict on a token that is signed turns from one verdict on its scope into its
being expired at the expiry that it claims. -/
theorem expiry_threshold (key : Bytes) (token : String) (service : Service) :
    (∀ now now' c, now ≤ now' → verify key token service now' = .ok c →
        verify key token service now = .ok c) ∧
      (∀ now now', now ≤ now' → verify key token service now = .error .expired →
        verify key token service now' = .error .expired) ∧
      (∀ why, why ≠ .expired → (∀ required granted, why ≠ .insufficientScope required granted) →
        ∀ now now', verify key token service now = .error why →
          verify key token service now' = .error why) ∧
      ∀ c header claims sign, Signed key token c header claims sign →
        ∀ earlier, verify key token service earlier ≠ .error .expired →
          earlier < c.expiry ∧
            ∃ verdict : Except Denial Claims,
              (verdict = .ok c ∨ verdict = .error (.insufficientScope service c.scope)) ∧
              ∀ now, verify key token service now =
                if now < c.expiry then verdict else .error .expired := by
  refine ⟨fun now now' c => accepted_before, fun now now' => expired_after,
    fun why hexpired hscope now now' h => error_always hexpired hscope h now', ?_⟩
  intro c header claims sign hsigned earlier hearlier
  obtain ⟨verdict, hverdict, hverify⟩ :=
    exists_verdict (signedClaims_eq_ok_iff.mpr ⟨header, claims, sign, hsigned⟩) service
  refine ⟨?_, verdict, hverdict, hverify⟩
  rw [hverify] at hearlier
  exact Decidable.not_not.mp fun hnot => hearlier (if_neg hnot)

/-- A token for one of the two services, up to the last of all times. -/
theorem expiry_threshold_issued :
    let c : Claims := ⟨"nrf", "amf", .string "udr", "nudr-dr", 18446744073709551615⟩
    let token := issue [1, 2] c
    (∃ header claims sign, Signed [1, 2] token c header claims sign) ∧
      (∀ now, verify [1, 2] token .dataRepository now =
        if now < c.expiry then .ok c else .error .expired) ∧
      ∀ now, verify [1, 2] token .groupIdMap now =
        if now < c.expiry then .error (.insufficientScope .groupIdMap c.scope) else .error .expired := by
  intro c token
  have hclaims : signedClaims [1, 2] token = .ok c :=
    signedClaims_issue [1, 2] (c := c) trivial rfl (Nat.zero_le 126)
  obtain ⟨header, claims, sign, hsigned⟩ := signedClaims_eq_ok_iff.mp hclaims
  have hverify : ∀ service, verify [1, 2] token service 0 =
      if grants c.scope service = true then .ok c
      else .error (.insufficientScope service c.scope) := fun service =>
    (verify_of_signedClaims hclaims service 0).trans (if_neg (by decide))
  have hgranted := (hverify .dataRepository).trans (if_pos (by decide +kernel))
  have hother := (hverify .groupIdMap).trans (if_neg (by decide +kernel))
  -- The verdict at the first of all times is the one before the expiry.
  have hturns : ∀ service verdict, verify [1, 2] token service 0 = verdict →
      verdict ≠ .error .expired → ∀ now, verify [1, 2] token service now =
        if now < c.expiry then verdict else .error .expired := by
    rintro service _ rfl hnot
    obtain ⟨-, -, -, hthreshold⟩ := expiry_threshold [1, 2] token service
    obtain ⟨hlt, verdict, -, hverdict⟩ := hthreshold c header claims sign hsigned 0 hnot
    rwa [(hverdict 0).trans (if_pos hlt)]
  exact ⟨⟨header, claims, sign, hsigned⟩, hturns _ _ hgranted nofun, hturns _ _ hother nofun⟩

end DataRepository.Access

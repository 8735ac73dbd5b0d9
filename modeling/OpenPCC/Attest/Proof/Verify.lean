import OpenPCC.Attest.Verify
import OpenPCC.Attest.Proof.TpmQuote

/-!
# When the verification of a node can panic

One lemma per step says when it panics, given its own inputs; the stages are then chained with
`Outcome.noPanic_bind`. Five parts of the evidence are used without a check: the options of the
TDX library, the register values and the digest of the quote, the event log with its secure-boot
state, the REK's public area, and the size of its coordinates (`Libs.Intact`).
`verifyComputeNode_safe_iff`: the verification returns, and with an error if a required piece is
missing, exactly when these parts are there.
-/

namespace Attest

open Go Outcome

/-! ## The steps -/

theorem noPanic_toArray32 {b : Bytes} : NoPanic (toArray32 b) ↔ 32 ≤ b.length := by
  rw [toArray32]
  split
  · next h => simp [h]
  · next h => simp; omega

theorem noPanic_verifyQuote (t : Tpm) (ak : RsaPublicKey) (piece : SignedEvidencePiece) :
    NoPanic (t.verifyQuote ak piece) := by
  simp [Tpm.verifyQuote, noPanic_bind]

theorem noPanic_tpmQuote {t : Tpm} {ak : RsaPublicKey} {piece : SignedEvidencePiece} :
    NoPanic (t.tpmQuote ak piece) ↔ ∀ tpmQuoteProto tpms,
      t.verifyQuote ak piece = .ok (tpmQuoteProto, tpms) →
      tpmQuoteProto.pcrValues.isSome ∧
        ∀ q, t.quote tpms = .ok q → 32 ≤ q.pcrDigest.length := by
  simp only [Tpm.tpmQuote, noPanic_bind, noPanic_verifyQuote, noPanic_deref, noPanic_ofExcept,
    noPanic_toArray32, noPanic_check, deref_eq_ok, ofExcept_eq_ok, true_and]
  constructor
  · intro h tpmQuoteProto tpms hv
    obtain ⟨hsome, hrest⟩ := h _ hv
    refine ⟨hsome, fun q hq => ?_⟩
    obtain ⟨values, hvals⟩ := Option.isSome_iff_exists.1 hsome
    exact (hrest values hvals _ (Tpm.concatPCRs_ordered _ values) q hq).1
  · rintro h ⟨tpmQuoteProto, tpms⟩ hv
    obtain ⟨hsome, hlen⟩ := h tpmQuoteProto tpms hv
    exact ⟨hsome, fun values _ _ _ q hq => ⟨hlen q hq, by simp⟩⟩

theorem getRawEvents_eq_ok {b : Boot} {piece : Option SignedEvidencePiece}
    {events : List Event} {secureBoot : Option SecureBootState} :
    b.getRawEventsAndSecureBootState piece = .ok (events, secureBoot) ↔
      ∃ p, piece = some p ∧ b.unmarshalFirmwareLogState p.data = .ok ⟨events, secureBoot⟩ := by
  simp only [Boot.getRawEventsAndSecureBootState, bind_eq_ok, deref_eq_ok, wrap_eq_ok,
    ofExcept_eq_ok, pure_eq]
  constructor
  · rintro ⟨p, hp, log, hlog, hret⟩
    cases hret
    exact ⟨p, hp, hlog⟩
  · rintro ⟨p, hp, hlog⟩
    exact ⟨p, hp, _, hlog, rfl⟩

theorem noPanic_getRawEvents {b : Boot} {piece : Option SignedEvidencePiece} :
    NoPanic (b.getRawEventsAndSecureBootState piece) ↔ piece.isSome := by
  simp [Boot.getRawEventsAndSecureBootState, noPanic_bind]

theorem noPanic_eventLog {b : Boot} {expected : List MR} {piece : Option SignedEvidencePiece}
    {m : ImageManifest} :
    NoPanic (b.eventLog expected piece m) ↔ ∃ p, piece = some p ∧
      ∀ log, b.unmarshalFirmwareLogState p.data = .ok log → log.secureBoot.isSome := by
  simp only [Boot.eventLog, noPanic_bind, noPanic_wrap, wrap_eq_ok, noPanic_getRawEvents,
    noPanic_deref, noPanic_check, noPanic_ofExcept, deref_eq_ok, check_eq_ok, ofExcept_eq_ok,
    implies_true, and_true]
  constructor
  · rintro ⟨hsome, hrest⟩
    obtain ⟨p, hp⟩ := Option.isSome_iff_exists.1 hsome
    refine ⟨p, hp, fun log hlog => ?_⟩
    exact hrest (log.rawEvents, log.secureBoot) (getRawEvents_eq_ok.2 ⟨p, hp, hlog⟩)
  · rintro ⟨p, hp, hlog⟩
    refine ⟨by simp [hp], ?_⟩
    rintro ⟨events, secureBoot⟩ hraw
    obtain ⟨p', hp', hlog'⟩ := getRawEvents_eq_ok.1 hraw
    cases hp.symm.trans hp'
    exact hlog _ hlog'

theorem noPanic_tdxReport {L : Libs} {rootCert : Certificate} {collateral : TDXCollateral}
    {piece : SignedEvidencePiece} :
    NoPanic (L.tdxReport rootCert collateral piece) ↔ ∀ report,
      L.quoteToProto piece.data = .ok report →
      (L.rootOfTrustToOptions (L.certificateToPEMString rootCert)).1.isSome := by
  simp only [Libs.tdxReport, noPanic_bind, noPanic_wrap, noPanic_ofExcept, wrap_eq_ok,
    ofExcept_eq_ok, noPanic_deref, deref_eq_ok, true_and]
  constructor
  · intro h report hreport
    exact (h report hreport).1
  · intro h report hreport
    refine ⟨h report hreport, fun options _ => ?_⟩
    split <;> simp

theorem noPanic_tpmt {L : Libs} {name : Bytes} {piece : Option SignedEvidencePiece}
    {values : PCRValues} : NoPanic (L.tpmt name piece values) ↔ piece.isSome := by
  simp [Libs.tpmt, noPanic_bind]

theorem noPanic_copyRight {dst src : Bytes} {last : Nat} :
    NoPanic (Libs.copyRight dst last src) ↔ src.length ≤ last := by
  rw [Libs.copyRight]
  split
  · next h => simp [h]
  · next h => simp; omega

theorem copyRight_eq_ok {dst src : Bytes} {last : Nat} (h : src.length ≤ last) :
    ∃ b, Libs.copyRight dst last src = .ok b :=
  ⟨_, if_pos h⟩

theorem noPanic_hpkePub {L : Libs} {tpmpt : TPMTPublic} :
    NoPanic (L.hpkePub tpmpt) ↔ ∀ key, Libs.p256Key tpmpt = .ok key →
      key.x.length ≤ 33 ∧ key.y.length ≤ 65 := by
  simp only [Libs.hpkePub, noPanic_bind, noPanic_ofExcept, ofExcept_eq_ok, noPanic_copyRight,
    noPanic_wrap, true_and, implies_true, and_true]
  constructor
  · intro h key hkey
    obtain ⟨hx, hrest⟩ := h key hkey
    obtain ⟨b, hb⟩ := copyRight_eq_ok hx
    exact ⟨hx, hrest b hb⟩
  · intro h key hkey
    obtain ⟨hx, hy⟩ := h key hkey
    exact ⟨hx, fun _ _ => hy⟩

/-! ## The stages -/

section Stages

variable {L : Libs} {evidence : SignedEvidenceList}

theorem noPanic_verifyTee : NoPanic (L.verifyTee evidence) ↔ L.HasTdxOptions evidence := by
  rw [Libs.verifyTee]
  split
  · next htdx => simp [Libs.HasTdxOptions, htdx]
  · next hsev _ => simp [Libs.HasTdxOptions, hsev]
  · next hsev _ => simp [Libs.HasTdxOptions, hsev]
  · next tdx hsev htdx =>
    simp only [noPanic_bind, noPanic_ofExcept, noPanic_orErr, noPanic_wrap, noPanic_tdxReport,
      ofExcept_eq_ok, orErr_eq_ok, true_and]
    constructor
    · intro h tdx' rootCert piece collateral report _ htdx' hroot hpiece hcoll hreport
      cases htdx.symm.trans htdx'
      exact h rootCert hroot piece hpiece collateral hcoll report hreport
    · intro h rootCert hroot piece hpiece collateral hcoll report hreport
      exact h tdx rootCert piece collateral report hsev htdx hroot hpiece hcoll hreport

theorem noPanic_attested : NoPanic (L.attested evidence) ↔ L.HasTdxOptions evidence := by
  simp only [Libs.attested, noPanic_bind, noPanic_check, noPanic_ofExcept, noPanic_verifyTee,
    check_eq_ok, pure_eq, noPanic_ok, true_and, implies_true, and_true]
  constructor
  · intro h
    cases evidence with
    | nil => simp [Libs.HasTdxOptions, maybeGetEvidencePieceFromList]
    | cons piece evidence => exact h () rfl
  · intro h _ _
    exact h

theorem noPanic_quoted :
    NoPanic (L.quoted evidence) ↔ L.HasTdxOptions evidence ∧ L.HasQuoteParts evidence := by
  simp only [Libs.quoted, noPanic_bind, noPanic_attested, noPanic_orErr, noPanic_wrap,
    noPanic_tpmQuote, orErr_eq_ok, pure_eq, noPanic_ok, true_and, implies_true, and_true]
  refine and_congr_right fun _ => ?_
  constructor
  · intro h ak name piece msg tpms hatt hpiece hv
    exact h (ak, name) hatt piece hpiece msg tpms hv
  · rintro h ⟨ak, name⟩ hatt piece hpiece msg tpms hv
    exact h ak name piece msg tpms hatt hpiece hv

theorem noPanic_manifested : NoPanic (L.manifested evidence) ↔ NoPanic (L.quoted evidence) := by
  simp only [Libs.manifested, noPanic_bind, noPanic_orErr, noPanic_wrap, noPanic_ofExcept,
    pure_eq, noPanic_ok, implies_true, and_true]

theorem noPanic_booted :
    NoPanic (L.booted evidence) ↔ NoPanic (L.quoted evidence) ∧ L.HasEventLog evidence := by
  simp only [Libs.booted, noPanic_bind, noPanic_manifested, noPanic_wrap, noPanic_eventLog,
    pure_eq, noPanic_ok, implies_true, and_true, Libs.HasEventLog]

theorem noPanic_sealedKey : NoPanic (L.sealedKey evidence) ↔ NoPanic (L.booted evidence) ∧
    ∀ s, L.booted evidence = .ok s → Has evidence .tpmtPublic := by
  simp only [Libs.sealedKey, noPanic_bind, noPanic_wrap, noPanic_tpmt, noPanic_deref,
    noPanic_ofExcept, implies_true, and_true, Has]
  refine and_congr_right fun _ => ?_
  constructor
  · intro h s hs
    exact (h s hs).1
  · intro h s hs
    exact ⟨h s hs, fun _ _ => h s hs⟩

theorem noPanic_verifyComputeNode :
    NoPanic (L.verifyComputeNode evidence) ↔ L.Intact evidence := by
  simp only [Libs.verifyComputeNode, noPanic_bind, noPanic_sealedKey, noPanic_booted,
    noPanic_quoted, noPanic_wrap, noPanic_hpkePub, noPanic_ofExcept, pure_eq, noPanic_ok,
    implies_true, and_true]
  constructor
  · rintro ⟨⟨⟨⟨htdx, hquote⟩, hlog⟩, hpub⟩, hpoint⟩
    exact ⟨htdx, hquote, hlog, hpub, fun area key harea hkey => hpoint area harea key hkey⟩
  · rintro ⟨htdx, hquote, hlog, hpub, hpoint⟩
    exact ⟨⟨⟨⟨htdx, hquote⟩, hlog⟩, hpub⟩, fun area harea key hkey => hpoint area key harea hkey⟩

/-! ## Complete evidence -/

theorem has_tee_of_ok (h : L.verifyTee evidence = .ok ()) :
    Has evidence .sevSnpReport ∨ Has evidence .tdxReport := by
  rw [Libs.verifyTee] at h
  split at h
  · cases h
  · cases h
  · next hsev _ => exact .inl (by simp [Has, hsev])
  · next htdx => exact .inr (by simp [Has, htdx])

theorem has_ak_of_ok {key : RsaPublicKey} (h : L.verifyAk evidence = .ok key) :
    Has evidence .azureAkCertificate ∨
      Has evidence .gceAkIntermediateCertificate ∧ Has evidence .gceAkCertificate := by
  rw [Libs.verifyAk] at h
  split at h
  · next piece hgce _ =>
    refine .inr ⟨by simp [Has, hgce], ?_⟩
    cases hak : maybeGetEvidencePieceFromList .gceAkCertificate evidence with
    | some akPiece => simp [Has, hak]
    | none =>
      -- the intermediate certificate is checked first, so the error may be either
      rw [hak] at h
      cases hint : L.gceAkIntermediateCertificate piece with
      | error e =>
        rw [hint] at h
        cases h
      | ok cert =>
        rw [hint] at h
        cases h
  · next hazure => exact .inl (by simp [Has, hazure])
  · cases h

theorem has_rek_of_ok {ak : RsaPublicKey} {name : Bytes}
    (h : L.verifyRekCreation ak evidence = .ok name) : Has evidence .certifyRekCreation := by
  rw [Libs.verifyRekCreation] at h
  split at h
  · cases h
  · next hrek => simp [Has, hrek]

theorem attested_ok {t : RsaPublicKey × Bytes} (h : L.attested evidence = .ok t) :
    L.verifyTee evidence = .ok () ∧ ∃ key, L.verifyAk evidence = .ok key ∧
      ∃ name, L.verifyRekCreation key evidence = .ok name := by
  simp only [Libs.attested, bind_eq_ok, ofExcept_eq_ok] at h
  obtain ⟨-, -, ⟨⟩, htee, key, hak, name, hrek, -⟩ := h
  exact ⟨htee, key, hak, name, hrek⟩

theorem quoted_ok {s : Bytes × PCRValues} (h : L.quoted evidence = .ok s) :
    (∃ t, L.attested evidence = .ok t) ∧ Has evidence .tpmQuote := by
  simp only [Libs.quoted, bind_eq_ok, orErr_eq_ok] at h
  obtain ⟨t, ht, piece, hpiece, -⟩ := h
  exact ⟨⟨t, ht⟩, by simp [Has, hpiece]⟩

theorem manifested_ok {s : Bytes × PCRValues × ImageManifest}
    (h : L.manifested evidence = .ok s) :
    (∃ t, L.quoted evidence = .ok t) ∧ Has evidence .imageSigstoreBundle := by
  simp only [Libs.manifested, bind_eq_ok, orErr_eq_ok] at h
  obtain ⟨t, ht, piece, hpiece, -⟩ := h
  exact ⟨⟨t, ht⟩, by simp [Has, hpiece]⟩

theorem booted_ok {s : Bytes × PCRValues} (h : L.booted evidence = .ok s) :
    (∃ t, L.manifested evidence = .ok t) ∧ Has evidence .eventLog := by
  simp only [Libs.booted, bind_eq_ok, wrap_eq_ok] at h
  obtain ⟨t, ht, ⟨⟩, hlog, -⟩ := h
  obtain ⟨piece, hpiece, -⟩ := noPanic_eventLog.1 (hlog ▸ noPanic_ok ())
  exact ⟨⟨t, ht⟩, by simp [Has, hpiece]⟩

theorem sealedKey_ok {area : TPMTPublic} (h : L.sealedKey evidence = .ok area) :
    (∃ t, L.booted evidence = .ok t) ∧ Has evidence .tpmtPublic := by
  simp only [Libs.sealedKey, bind_eq_ok, deref_eq_ok] at h
  obtain ⟨t, ht, -, -, piece, hpiece, -⟩ := h
  exact ⟨⟨t, ht⟩, by simp [Has, hpiece]⟩

theorem complete_of_ok {data : ComputeData} (h : L.verifyComputeNode evidence = .ok data) :
    Complete evidence := by
  simp only [Libs.verifyComputeNode, bind_eq_ok] at h
  obtain ⟨area, harea, -⟩ := h
  obtain ⟨⟨_, hbooted⟩, hpub⟩ := sealedKey_ok harea
  obtain ⟨⟨_, hmanifested⟩, hlog⟩ := booted_ok hbooted
  obtain ⟨⟨_, hquoted⟩, himage⟩ := manifested_ok hmanifested
  obtain ⟨⟨_, hattested⟩, hquote⟩ := quoted_ok hquoted
  obtain ⟨htee, key, hak, name, hrek⟩ := attested_ok hattested
  exact ⟨has_tee_of_ok htee, has_ak_of_ok hak, has_rek_of_ok hrek, hquote, himage, hlog, hpub⟩

end Stages

/-- The verification of a node returns, and returns an error if a required piece is missing, if
and only if the parts it does not check are there. -/
theorem verifyComputeNode_safe_iff (L : Libs) (evidence : SignedEvidenceList) :
    (NoPanic (L.verifyComputeNode evidence) ∧
      (¬ Complete evidence → ∃ e, L.verifyComputeNode evidence = .err e)) ↔
    L.Intact evidence := by
  constructor
  · rintro ⟨hsafe, -⟩
    exact noPanic_verifyComputeNode.1 hsafe
  · intro hintact
    have hsafe := noPanic_verifyComputeNode.2 hintact
    refine ⟨hsafe, fun hmissing => ?_⟩
    cases hv : L.verifyComputeNode evidence with
    | ok data => exact absurd (complete_of_ok hv) hmissing
    | err e => exact ⟨e, rfl⟩
    | panic => exact absurd hv hsafe

/-! ## Evidence without an event log -/

/-- A statement with one subject and an empty manifest. -/
def emptyManifest : ManifestStatement :=
  ⟨[⟨[], Finmap.singleton (utf8 "sha256".toList) (List.replicate 64 48)⟩],
    Libs.imageManifestPredicateType, AList.singleton (utf8 "imageManifest".toList) (.string [])⟩

/-- Libraries that accept everything; event logs decode to an empty message. -/
def lenientLibs : Libs where
  tpm := uniformTpm (AList.singleton 0 (List.replicate 32 7))
  boot := ⟨fun _ => .ok ⟨[], none⟩, fun _ => none⟩
  certs := ⟨[], [], [], [], []⟩
  parseCertificate _ := .ok ⟨[], .rsa ⟨3233, 17⟩, [], []⟩
  verifyCertificate _ _ := .ok ()
  pemDecode := some
  pemEncodeToMemory b := b
  unmarshalInstanceInfo _ := .ok ⟨[], 1, [], 1, [], 1, true⟩
  base64RawURL b := b
  SnpAttestation := Unit
  unmarshalSnpAttestation _ := .ok ()
  snpAttestation _ := .ok ()
  TdxQuote := Unit
  TdxOptions := Unit
  unmarshalTDXCollateral _ := .ok ⟨[], [], [], [], [], [], [], [], [], [], [], [], [], []⟩
  quoteToProto _ := .ok ()
  rootOfTrustToOptions _ := (some (), none)
  tdxQuote _ _ _ := .ok ()
  TPM2BAttest := Unit
  unmarshal2BAttest _ := .ok ()
  contents _ := .ok ()
  creation _ := .ok []
  unmarshalPublic _ := .ok ⟨.ecc, [], .ok 0, .ok [], .ok .nistP256, .ok ([1], [1])⟩
  objectName _ := .ok []
  pcrs _ := []
  newPolicyCalculator := .ok ()
  policyPCR _ _ := .ok []
  parseJWT _ _ := .ok true
  verifyStatementWithProcessor _ processor :=
    (processor (some emptyManifest)).map fun _ => some emptyManifest
  packages := ⟨fun _ => .ok ⟨[1], [1]⟩, fun _ => .ok [], fun _ => Vector.replicate 32 0⟩
  unmarshalImageManifest _ := .ok ⟨[], some ⟨[]⟩⟩
  KemPublicKey := Bytes
  unmarshalBinaryPublicKey b := .ok b
  marshalKemPublicKey b := .ok b

/-- The pieces of a node on Azure, without the event log and the REK's public area. -/
def withoutEventLog : SignedEvidenceList :=
  [⟨.sevSnpReport, [], []⟩, ⟨.azureAkCertificate, [], []⟩, ⟨.certifyRekCreation, [], []⟩,
    ⟨.tpmQuote, [], []⟩, ⟨.imageSigstoreBundle, [], []⟩]

/-- A missing event log, and an event log that is an empty message, both crash the client. -/
theorem verifyComputeNode_panics :
    ¬ Complete withoutEventLog ∧
    lenientLibs.verifyComputeNode withoutEventLog = .panic ∧
    lenientLibs.verifyComputeNode (withoutEventLog ++ [⟨.eventLog, [], []⟩]) = .panic := by
  refine ⟨fun hcomplete => ?_, rfl, rfl⟩
  exact absurd hcomplete.eventLog (by decide)

end Attest

import OpenPCC.Attest.TpmQuote

/-!
# What an accepted quote says about the registers

`tpmQuote_eq_ok_iff` says when `TPMQuote` accepts: the quote is signed and the hash of the sent
values, joined in the order of their keys, is the quoted digest. The hash fixes the joined
bytes and nothing else: where one value ends and the next begins, and which register a value is
of, is read from the map that was sent. So an accepted map is the quoted one exactly when it
cannot be cut and labelled differently (`tpmQuote_exact_iff`).
-/

namespace Attest

open Go

/-! ## The loops over the keys -/

theorem Tpm.concatPCRs_eq (t : Tpm) (values : PCRValues) {ks : List Nat} (acc : Bytes)
    (h : ∀ n ∈ ks, n < 2 ^ 32) :
    t.concatPCRs values ks acc =
      .ok (acc ++ ks.flatMap fun k => values.get (UInt32.ofNat k)) := by
  induction ks generalizing acc with
  | nil => simp [concatPCRs]
  | cons k ks ih =>
    have hk := t.toUint32_of_lt (h k (by simp))
    have hks := ih (acc ++ values.get (UInt32.ofNat k)) fun n hn => h n (by simp [hn])
    rw [concatPCRs, hk]
    show t.concatPCRs values ks _ = _
    rw [hks, List.flatMap_cons, List.append_assoc]

theorem ofNat_eq_iff {n : Nat} (h : n < 2 ^ 32) (k : UInt32) :
    UInt32.ofNat n = k ↔ n = k.toNat := by
  constructor
  · rintro rfl
    rw [UInt32.toNat_ofNat_of_lt' h]
  · rintro rfl
    exact UInt32.ofNat_toNat

theorem Tpm.copyPCRs_eq (t : Tpm) (values : PCRValues) {ks : List Nat} (acc : PCRValues)
    (h : ∀ n ∈ ks, n < 2 ^ 32) :
    ∃ m, t.copyPCRs values ks acc = .ok m ∧
      ∀ k, m.lookup k = if k.toNat ∈ ks then some (values.get k) else acc.lookup k := by
  induction ks generalizing acc with
  | nil => exact ⟨acc, rfl, fun k => by simp⟩
  | cons n ks ih =>
    have hn := h n (by simp)
    obtain ⟨m, hm, hget⟩ := ih (acc.insert (UInt32.ofNat n) (values.get (UInt32.ofNat n)))
      fun i hi => h i (by simp [hi])
    refine ⟨m, ?_, fun k => ?_⟩
    · rw [copyPCRs, t.toUint32_of_lt hn]
      exact hm
    · rw [hget k]
      by_cases hk : k.toNat ∈ ks
      · simp [hk]
      · by_cases hkn : n = k.toNat
        · subst hkn
          rw [if_neg hk, UInt32.ofNat_toNat, AList.lookup_insert, if_pos (by simp)]
        · have hne : k ≠ UInt32.ofNat n := fun e => hkn ((ofNat_eq_iff hn k).1 e.symm)
          rw [AList.lookup_insert_ne hne]
          simp [hk, Ne.symm hkn]

/-! ## The keys in order -/

theorem mem_orderedPCRIndices {values : PCRValues} {n : Nat} :
    n ∈ orderedPCRIndices values ↔ ∃ k ∈ values, k.toNat = n := by
  simp [orderedPCRIndices, AList.mem_keys]

theorem toNat_mem_orderedPCRIndices {values : PCRValues} {k : UInt32} :
    k.toNat ∈ orderedPCRIndices values ↔ k ∈ values := by
  rw [mem_orderedPCRIndices]
  constructor
  · rintro ⟨k', hk', e⟩
    rwa [← UInt32.toNat_inj.1 e]
  · intro hk
    exact ⟨k, hk, rfl⟩

theorem lt_of_mem_orderedPCRIndices {values : PCRValues} {n : Nat}
    (h : n ∈ orderedPCRIndices values) : n < 2 ^ 32 := by
  obtain ⟨k, _, rfl⟩ := mem_orderedPCRIndices.1 h
  exact k.toNat_lt

theorem orderedPCRIndices_eq_sort (values : PCRValues) :
    orderedPCRIndices values = values.indices.sort (· ≤ ·) := by
  have hnd : (orderedPCRIndices values).Nodup := by
    rw [orderedPCRIndices, (List.perm_insertionSort _ _).nodup_iff]
    exact values.nodupKeys.map fun a b hab => UInt32.toNat_inj.1 hab
  have hset : values.indices = (orderedPCRIndices values).toFinset := by
    ext n
    simp [PCRValues.indices, orderedPCRIndices]
  rw [hset]
  exact ((List.toFinset_sort _ hnd).2 (List.pairwise_insertionSort _ _)).symm

theorem lookup_of_mem {values : PCRValues} {k : UInt32} (h : k ∈ values) :
    values.lookup k = some (values.get k) := by
  obtain ⟨v, hv⟩ := Option.isSome_iff_exists.1 (AList.lookup_isSome.2 h)
  rw [PCRValues.get, hv, Option.getD_some]

theorem Tpm.concatPCRs_ordered (t : Tpm) (values : PCRValues) :
    t.concatPCRs values (orderedPCRIndices values) [] = .ok values.joined := by
  rw [t.concatPCRs_eq values [] fun n hn => lt_of_mem_orderedPCRIndices hn, List.nil_append]
  rfl

theorem Tpm.copyPCRs_lookup {t : Tpm} {values V : PCRValues}
    (h : t.copyPCRs values (orderedPCRIndices values) ∅ = .ok V) (k : UInt32) :
    V.lookup k = values.lookup k := by
  obtain ⟨m, hm, hget⟩ := t.copyPCRs_eq values ∅ fun n hn => lt_of_mem_orderedPCRIndices hn
  rw [h] at hm
  cases hm
  rw [hget k]
  by_cases hk : k ∈ values
  · rw [if_pos (toNat_mem_orderedPCRIndices.2 hk), lookup_of_mem hk]
  · rw [if_neg (mt toNat_mem_orderedPCRIndices.1 hk), AList.lookup_empty,
      AList.lookup_eq_none.2 hk]

theorem mem_iff_of_lookup {V values : PCRValues} (h : ∀ k, V.lookup k = values.lookup k)
    (k : UInt32) : k ∈ V ↔ k ∈ values := by
  rw [← AList.lookup_isSome, ← AList.lookup_isSome, h k]

theorem indices_eq_of_lookup {V values : PCRValues} (h : ∀ k, V.lookup k = values.lookup k) :
    V.indices = values.indices := by
  ext n
  simp only [PCRValues.indices, List.mem_toFinset, List.mem_map]
  constructor
  · rintro ⟨k, hk, rfl⟩
    exact ⟨k, (mem_iff_of_lookup h k).1 hk, rfl⟩
  · rintro ⟨k, hk, rfl⟩
    exact ⟨k, (mem_iff_of_lookup h k).2 hk, rfl⟩

/-! ## Acceptance -/

theorem toArray32_toList (v : Vector UInt8 32) : toArray32 v.toList = .ok v := by
  have hlen : v.toList.length = 32 := by simp
  rw [toArray32, dif_pos (by omega)]
  congr 1
  apply Vector.toArray_inj.1
  show (v.toList.take 32).toArray = v.toArray
  rw [List.take_of_length_le (by omega)]
  simp [Vector.toList]

theorem tpmQuote_eq_ok_iff (t : Tpm) (ak : RsaPublicKey) (piece : SignedEvidencePiece)
    (V : PCRValues) :
    t.tpmQuote ak piece = .ok V ↔ ∃ values q, t.Sent ak piece values q ∧
      toArray32 q.pcrDigest = .ok (t.sha256 values.joined) ∧
      t.copyPCRs values (orderedPCRIndices values) ∅ = .ok V := by
  simp only [Tpm.tpmQuote, Outcome.bind_eq_ok, Outcome.ofExcept_eq_ok, Outcome.deref_eq_ok,
    Outcome.check_eq_ok, Tpm.concatPCRs_ordered, Tpm.Sent, beq_iff_eq]
  constructor
  · rintro ⟨⟨msg, tpms⟩, hv, values, hvals, j, hj, q, hq, d, hd, -, he, hV⟩
    cases hj
    exact ⟨values, q, ⟨msg, tpms, hv, hvals, hq⟩, by rw [hd, he], hV⟩
  · rintro ⟨values, q, ⟨msg, tpms, hv, hvals, hq⟩, hd, hV⟩
    exact ⟨(msg, tpms), hv, values, hvals, _, rfl, q, hq, _, hd, (), rfl, hV⟩

theorem sent_unique {t : Tpm} {ak : RsaPublicKey} {piece : SignedEvidencePiece}
    {values values' : PCRValues} {q q' : QuoteInfo} (h : t.Sent ak piece values q)
    (h' : t.Sent ak piece values' q') : values = values' ∧ q = q' := by
  obtain ⟨msg, tpms, hv, hvals, hq⟩ := h
  obtain ⟨msg', tpms', hv', hvals', hq'⟩ := h'
  rw [hv] at hv'
  cases hv'
  rw [hvals] at hvals'
  rw [hq] at hq'
  cases hvals'
  cases hq'
  exact ⟨rfl, rfl⟩

theorem genuine_of_sent {t : Tpm} {ak : RsaPublicKey} {R : Registers}
    (hR : t.Unforgeable ak R) {piece : SignedEvidencePiece} {values : PCRValues} {q : QuoteInfo}
    (h : t.Sent ak piece values q) : Genuine t.sha256 R q := by
  obtain ⟨msg, tpms, hv, -, hq⟩ := h
  simp only [Tpm.verifyQuote, Outcome.bind_eq_ok, Outcome.ofExcept_eq_ok] at hv
  obtain ⟨_, -, tpms', -, _, -, rsassa, -, ⟨⟩, hsig, hret⟩ := hv
  cases hret
  exact hR tpms rsassa q hsig hq

/-! ## Cutting and labelling the joined values -/

/-- Values under the right labels and of the right widths are determined by their
concatenation. -/
theorem get_eq_of_labelled {values : PCRValues} {R : Registers} {select : Finset Nat}
    (hl : values.Labelled select) (hj : values.joined = quotedBytes R select) {k : UInt32}
    (hk : k ∈ values) : values.get k = (R k.toNat).toList := by
  rw [PCRValues.joined, quotedBytes, ← hl.indices_eq, ← orderedPCRIndices_eq_sort] at hj
  have hlen : ∀ n ∈ orderedPCRIndices values,
      (values.get (UInt32.ofNat n)).length = (R n).toList.length := by
    intro n hn
    obtain ⟨k', hk', rfl⟩ := mem_orderedPCRIndices.1 hn
    rw [UInt32.ofNat_toNat, hl.width k' hk', Vector.length_toList]
  have h := List.flatMap_inj_of_length hlen hj k.toNat (toNat_mem_orderedPCRIndices.2 hk)
  rwa [UInt32.ofNat_toNat] at h

theorem exact_of_labelled {values V : PCRValues} {R : Registers} {select : Finset Nat}
    (hl : values.Labelled select) (hj : values.joined = quotedBytes R select)
    (hV : ∀ k, V.lookup k = values.lookup k) : V.Exact R select where
  indices_eq := by rw [indices_eq_of_lookup hV, hl.indices_eq]
  lookup_eq := by
    intro k hk
    have hk' := (mem_iff_of_lookup hV k).1 hk
    rw [hV k, lookup_of_mem hk', get_eq_of_labelled hl hj hk']

theorem labelled_of_exact {values V : PCRValues} {R : Registers} {select : Finset Nat}
    (he : V.Exact R select) (hV : ∀ k, V.lookup k = values.lookup k) :
    values.Labelled select where
  indices_eq := by rw [← indices_eq_of_lookup hV, he.indices_eq]
  width := by
    intro k hk
    have h := he.lookup_eq k ((mem_iff_of_lookup hV k).2 hk)
    rw [hV k, lookup_of_mem hk] at h
    rw [Option.some.inj h, Vector.length_toList]

/-- `TPMQuote` returns the quoted registers, exactly, if and only if the sent values, when they
join to the quoted bytes, are under the quoted labels and one register wide. -/
theorem tpmQuote_exact_iff (t : Tpm) (ak : RsaPublicKey) (R : Registers)
    (hR : t.Unforgeable ak R) (piece : SignedEvidencePiece) :
    (∀ V, t.tpmQuote ak piece = .ok V →
      ∃ values q, t.Sent ak piece values q ∧ V.Exact R q.pcrSelect) ↔
    ∀ values q, t.Sent ak piece values q → values.joined = quotedBytes R q.pcrSelect →
      values.Labelled q.pcrSelect := by
  constructor
  · intro h values q hs hj
    obtain ⟨V, hV, -⟩ := t.copyPCRs_eq values ∅ fun n hn => lt_of_mem_orderedPCRIndices hn
    have hd : toArray32 q.pcrDigest = .ok (t.sha256 values.joined) := by
      rw [(genuine_of_sent hR hs).digest_eq, toArray32_toList, hj]
    obtain ⟨values', q', hs', he⟩ := h V ((tpmQuote_eq_ok_iff ..).2 ⟨values, q, hs, hd, hV⟩)
    obtain ⟨rfl, rfl⟩ := sent_unique hs hs'
    exact labelled_of_exact he (Tpm.copyPCRs_lookup hV)
  · intro h V hV
    obtain ⟨values, q, hs, hd, hV⟩ := (tpmQuote_eq_ok_iff ..).1 hV
    have hg := genuine_of_sent hR hs
    rw [hg.digest_eq, toArray32_toList] at hd
    have hj := hg.binding _ (Outcome.ok.inj hd).symm
    exact ⟨values, q, hs, exact_of_labelled (h values q hs hj) hj (Tpm.copyPCRs_lookup hV)⟩

/-! ## A relabelled register -/

/-- A TPM whose registers all hold the same 32 bytes, with one quote, of register 0. Its hash
tells these bytes from all others. -/
def uniformTpm (values : PCRValues) : Tpm where
  TPMSAttest := Unit
  TPMTSignature := Unit
  sha256 b := if b = List.replicate 32 7 then Vector.replicate 32 1 else Vector.replicate 32 0
  verifyPKCS1v15 _ _ _ := .ok ()
  unmarshalAttest _ := .ok ()
  marshalAttest _ := []
  unmarshalSignature _ := .ok ()
  rsassa _ := .ok []
  quote _ := .ok ⟨{0}, List.replicate 32 1⟩
  unmarshalQuoteAttestation _ := .ok ⟨[], some values⟩
  toUint32 n := .ok (UInt32.ofNat n)
  toUint32_of_lt _ := rfl

theorem quotedBytes_uniform : quotedBytes (fun _ => Vector.replicate 32 7) {0} =
    List.replicate 32 7 := by
  rw [quotedBytes, Finset.sort_singleton]
  rfl

theorem uniformTpm_unforgeable (values : PCRValues) (ak : RsaPublicKey) :
    (uniformTpm values).Unforgeable ak fun _ => Vector.replicate 32 7 := by
  intro _ _ q _ hq
  cases hq
  refine ⟨?_, fun b hb => ?_⟩
  · rw [quotedBytes_uniform]
    rfl
  · rw [quotedBytes_uniform] at hb ⊢
    by_contra hne
    simp only [uniformTpm, if_neg hne, if_pos] at hb
    revert hb
    decide

theorem uniformTpm_sent {values values' : PCRValues} {ak : RsaPublicKey}
    {piece : SignedEvidencePiece} {q : QuoteInfo}
    (h : (uniformTpm values).Sent ak piece values' q) :
    values' = values ∧ q = ⟨{0}, List.replicate 32 1⟩ := by
  obtain ⟨_, _, hv, hvals, hq⟩ := h
  cases hv
  cases hvals
  cases hq
  exact ⟨rfl, rfl⟩

/-- A value sent under its own register's label is accepted, and comes back as that register. -/
theorem tpmQuote_exact_uniform :
    (uniformTpm (AList.singleton 0 (List.replicate 32 7))).tpmQuote ⟨3233, 17⟩
      ⟨.tpmQuote, [], []⟩ = .ok (AList.singleton 0 (List.replicate 32 7)) ∧
    PCRValues.Exact (AList.singleton 0 (List.replicate 32 7))
      (fun _ => Vector.replicate 32 7) {0} := by
  have haccept : (uniformTpm (AList.singleton 0 (List.replicate 32 7))).tpmQuote ⟨3233, 17⟩
      ⟨.tpmQuote, [], []⟩ = .ok (AList.singleton 0 (List.replicate 32 7)) := rfl
  have hlabelled : PCRValues.Labelled (AList.singleton 0 (List.replicate 32 7)) {0} := by
    refine ⟨by decide, fun k hk => ?_⟩
    obtain rfl : k = 0 := List.mem_singleton.1 hk
    rfl
  obtain ⟨values, q, hs, he⟩ := (tpmQuote_exact_iff _ _ _ (uniformTpm_unforgeable _ _) _).2
    (fun values q hs _ => by
      obtain ⟨rfl, rfl⟩ := uniformTpm_sent hs
      exact hlabelled) _ haccept
  obtain ⟨rfl, rfl⟩ := uniformTpm_sent hs
  exact ⟨haccept, he⟩

/-- The TPM quotes register 0; its value is accepted, and returned, as that of register 5. -/
theorem tpmQuote_relabels :
    (uniformTpm (AList.singleton 5 (List.replicate 32 7))).Unforgeable ⟨3233, 17⟩
      (fun _ => Vector.replicate 32 7) ∧
    (uniformTpm (AList.singleton 5 (List.replicate 32 7))).tpmQuote ⟨3233, 17⟩
      ⟨.tpmQuote, [], []⟩ = .ok (AList.singleton 5 (List.replicate 32 7)) ∧
    ∀ values q, (uniformTpm (AList.singleton 5 (List.replicate 32 7))).Sent ⟨3233, 17⟩
      ⟨.tpmQuote, [], []⟩ values q → ¬ PCRValues.Exact (AList.singleton 5 (List.replicate 32 7))
        (fun _ => Vector.replicate 32 7) q.pcrSelect := by
  refine ⟨uniformTpm_unforgeable _ _, rfl, fun values q hs he => ?_⟩
  obtain ⟨rfl, rfl⟩ := uniformTpm_sent hs
  exact absurd he.indices_eq (by decide)

end Attest

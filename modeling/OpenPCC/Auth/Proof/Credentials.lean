import OpenPCC.Auth.Credentials
import OpenPCC.Lib.Framing
import OpenPCC.Lib.Runs

/-!
# The encoding of credentials is canonical

* `encodeStrings_eq_ok_iff`, `decodeStrings_eq_ok_iff`: the byte strings that are written and read
  are those of sorted names, each one in its frame.
* `decodeLoop_flatMap`: what the decoder makes of frames and a rest that it cannot read. A rest
  that declares a name makes a buffer of the declared length, however little of it is there.
-/

namespace Auth

open Go

/-- A non-empty printable ASCII string whose length fits into the prefix. -/
def IsName (str : Bytes) : Prop :=
  str ≠ [] ∧ (∀ c ∈ str, 32 ≤ c.toNat ∧ c.toNat ≤ 126) ∧ str.length < 2 ^ 32

instance : DecidablePred IsName := fun _ => inferInstanceAs (Decidable (_ ∧ _ ∧ _))

/-- A name with its length before it. -/
def frame (str : Bytes) : Bytes := LittleEndian.putUint32 (UInt32.ofNat str.length) ++ str

theorem length_frame (str : Bytes) : (frame str).length = str.length + 4 := by
  rw [frame, List.length_append, LittleEndian.length_putUint32, Nat.add_comm]

theorem isValidASCII_iff {str : Bytes} :
    isValidASCII str = true ↔ ∀ c ∈ str, 32 ≤ c.toNat ∧ c.toNat ≤ 126 := by
  have hrunes := forall_mem_runes (p := fun c => 32 ≤ c.toNat ∧ c.toNat ≤ 126)
    (fun c hc => by omega) (s := str)
  rw [isValidASCII, List.all_eq_true]
  simp only [Bool.not_eq_true', Bool.or_eq_false_iff, decide_eq_false_iff_not, not_le, not_lt]
  constructor
  · intro h c hc
    obtain ⟨hlt, hp⟩ := hrunes.1 (fun r hr => by have := h r hr; omega) c hc
    rwa [toNat_ofNat_of_lt hlt] at hp
  · intro h r hr
    have hp := hrunes.2 (fun c hc => by
      have hlt : c.toNat < 128 := by have := h c hc; omega
      rw [toNat_ofNat_of_lt hlt]
      exact ⟨hlt, h c hc⟩) r hr
    omega

/-! ## Encoding -/

theorem encodeString_of_isName {str : Bytes} (h : IsName str) (buf : Bytes) :
    encodeString buf str = .ok (buf ++ frame str, str.length + prefixLen) := by
  obtain ⟨hne, hascii, hlen⟩ := h
  have hpos : ¬ str.length = 0 := fun h0 => hne (List.length_eq_zero_iff.1 h0)
  have hmax : ¬ maxUint32 < str.length := by unfold maxUint32; omega
  rw [encodeString, isValidASCII_iff.2 hascii, if_neg (by decide), if_neg hpos, if_neg hmax, frame,
    ← List.append_assoc]

theorem isName_of_encodeString {buf str : Bytes} {r : Bytes × Nat}
    (h : encodeString buf str = .ok r) : IsName str := by
  unfold encodeString at h
  split_ifs at h with hascii hpos hmax
  refine ⟨fun hnil => hpos (by rw [hnil]; rfl), isValidASCII_iff.1 (by simpa using hascii), ?_⟩
  unfold maxUint32 at hmax
  omega

theorem encodeLoop_eq_ok_iff {buf b : Bytes} {strs : List Bytes} :
    encodeLoop buf strs = .ok b ↔ (∀ s ∈ strs, IsName s) ∧ b = buf ++ strs.flatMap frame := by
  induction strs generalizing buf with
  | nil => simp [encodeLoop, eq_comm]
  | cons str strs ih =>
    rw [encodeLoop, List.forall_mem_cons, List.flatMap_cons, ← List.append_assoc]
    by_cases hname : IsName str
    · rw [encodeString_of_isName hname]
      simp only [ih, hname, true_and]
    · cases henc : encodeString buf str with
      | error err => simp [hname]
      | ok r => exact absurd (isName_of_encodeString henc) hname

theorem encodeStrings_eq_ok_iff {strs : List Bytes} {b : Bytes} :
    encodeStrings strs = .ok b ↔
      (∀ s ∈ strs, IsName s) ∧ b = (strs.insertionSort (· ≤ ·)).flatMap frame := by
  rw [encodeStrings, encodeLoop_eq_ok_iff, List.nil_append]
  simp only [List.mem_insertionSort]

/-! ## Decoding -/

theorem decodeString_putUint32 {p : UInt32} (hp : p ≠ 0) (rest : Bytes) :
    decodeString (LittleEndian.putUint32 p ++ rest) = ⟨[p.toNat], readString p.toNat rest⟩ := by
  have hlen : (LittleEndian.putUint32 p ++ rest).length = 4 + rest.length := by
    rw [List.length_append, LittleEndian.length_putUint32]
  have htake : (LittleEndian.putUint32 p ++ rest).take prefixLen = LittleEndian.putUint32 p :=
    List.take_left' (LittleEndian.length_putUint32 p)
  have hdrop : (LittleEndian.putUint32 p ++ rest).drop prefixLen = rest :=
    List.drop_left' (LittleEndian.length_putUint32 p)
  have hprefix : ¬ (LittleEndian.putUint32 p ++ rest).length < prefixLen := by
    rw [hlen, prefixLen]
    omega
  rw [decodeString, if_neg (by omega), if_neg hprefix, htake, hdrop,
    LittleEndian.uint32_putUint32, if_neg hp]

theorem decodeString_cases (b : Bytes) :
    ((decodeString b).buffers = [] ∧ ∃ err, (decodeString b).result = .error err) ∨
      ∃ p rest, p ≠ 0 ∧ b = LittleEndian.putUint32 p ++ rest := by
  by_cases h0 : b.length = 0
  · left
    rw [decodeString, if_pos h0]
    exact ⟨rfl, _, rfl⟩
  by_cases hprefix : b.length < prefixLen
  · left
    rw [decodeString, if_neg h0, if_pos hprefix]
    exact ⟨rfl, _, rfl⟩
  by_cases hzero : LittleEndian.uint32 (b.take prefixLen) = 0
  · left
    rw [decodeString, if_neg h0, if_neg hprefix, if_pos hzero]
    exact ⟨rfl, _, rfl⟩
  · right
    have hlen : (b.take prefixLen).length = 4 := by
      rw [List.length_take, Nat.min_eq_left (Nat.le_of_not_lt hprefix), prefixLen]
    refine ⟨_, b.drop prefixLen, hzero, ?_⟩
    rw [LittleEndian.putUint32_uint32 hlen, List.take_append_drop]

theorem readString_eq_ok_iff {n : Nat} (hn : n ≠ 0) {b str rest : Bytes} :
    readString n b = .ok (str, rest) ↔
      b = str ++ rest ∧ str.length = n ∧ ∀ c ∈ str, 32 ≤ c.toNat ∧ c.toNat ≤ 126 := by
  unfold readString
  dsimp only
  constructor
  · intro h
    split_ifs at h with h0 hlen hascii
    obtain ⟨rfl, rfl⟩ := Prod.mk.inj (Except.ok.inj h)
    exact ⟨(List.take_append_drop n b).symm, not_not.1 hlen,
      isValidASCII_iff.1 (by simpa using hascii)⟩
  · rintro ⟨rfl, hlen, hascii⟩
    have h0 : ¬ (str ++ rest).length = 0 := by
      rw [List.length_append]
      omega
    rw [if_neg h0, List.take_left' hlen, List.drop_left' hlen, if_neg (not_not.2 hlen),
      isValidASCII_iff.2 hascii, if_neg (by decide)]

theorem decodeString_frame {str : Bytes} (h : IsName str) (rest : Bytes) :
    decodeString (frame str ++ rest) = ⟨[str.length], .ok (str, rest)⟩ := by
  obtain ⟨hne, hascii, hlen⟩ := h
  have hpos : str.length ≠ 0 := fun h0 => hne (List.length_eq_zero_iff.1 h0)
  have hnat : (UInt32.ofNat str.length).toNat = str.length := by
    rw [UInt32.toNat_ofNat', Nat.mod_eq_of_lt hlen]
  have hp : UInt32.ofNat str.length ≠ 0 := fun h0 => hpos (by rw [← hnat, h0]; rfl)
  have hread : readString str.length (str ++ rest) = .ok (str, rest) :=
    (readString_eq_ok_iff hpos).2 ⟨rfl, rfl, hascii⟩
  rw [frame, List.append_assoc, decodeString_putUint32 hp, hnat, hread]

theorem of_decodeString {b str rest : Bytes} (h : (decodeString b).result = .ok (str, rest)) :
    IsName str ∧ b = frame str ++ rest := by
  rcases decodeString_cases b with ⟨-, err, herr⟩ | ⟨p, rest', hp, rfl⟩
  · rw [herr] at h
    cases h
  · have hpos : p.toNat ≠ 0 := fun h0 => hp (UInt32.toNat_inj.1 h0)
    have hlt := p.toNat_lt
    rw [decodeString_putUint32 hp] at h
    obtain ⟨rfl, hlen, hascii⟩ := (readString_eq_ok_iff hpos).1 h
    refine ⟨⟨fun hnil => hpos ?_, hascii, by omega⟩, ?_⟩
    · rw [← hlen, hnil]
      rfl
    · rw [frame, hlen, UInt32.ofNat_toNat, List.append_assoc]

/-- Names, their frames and `decodeString`. -/
def framing : Framing Bytes UInt8 Err where
  Valid := IsName
  frame := frame
  take b := (decodeString b).result
  frame_ne_nil str _ h := by simpa [h] using length_frame str
  take_frame str rest h := by rw [decodeString_frame h]
  of_take b str rest h := of_decodeString h

theorem exists_names (b : Bytes) :
    ∃ (names : List Bytes) (rest : Bytes),
      (∀ s ∈ names, IsName s) ∧ b = names.flatMap frame ++ rest ∧ framing.Stuck rest :=
  framing.exists_split b

theorem decodeLoop_of_error {b : Bytes} {made : List Nat} {err : Err} (hb : b ≠ [])
    (h : decodeString b = ⟨made, .error err⟩) (fuel : Nat) :
    decodeLoop (fuel + 1) b = ⟨made, .error err⟩ := by
  have hpos : ¬ b.length = 0 := fun h0 => hb (List.length_eq_zero_iff.1 h0)
  rw [decodeLoop, if_neg hpos, h]

theorem decodeLoop_frame {str : Bytes} (h : IsName str) (fuel : Nat) (rest : Bytes) :
    decodeLoop (fuel + 1) (frame str ++ rest) =
      ⟨str.length :: (decodeLoop fuel rest).buffers,
        (decodeLoop fuel rest).result.map (str :: ·)⟩ := by
  have hpos : ¬ (frame str ++ rest).length = 0 := by
    rw [List.length_append, length_frame]
    omega
  rw [decodeLoop, if_neg hpos, decodeString_frame h]
  rfl

theorem decodeLoop_flatMap {names : List Bytes} {rest : Bytes} (hnames : ∀ s ∈ names, IsName s)
    (hrest : framing.Stuck rest) {fuel : Nat}
    (hfuel : (names.flatMap frame ++ rest).length ≤ fuel) :
    (decodeLoop fuel (names.flatMap frame ++ rest)).buffers =
        names.map List.length ++ (decodeString rest).buffers ∧
      ∀ l, (decodeLoop fuel (names.flatMap frame ++ rest)).result = .ok l ↔
        rest = [] ∧ l = names := by
  induction names generalizing fuel with
  | nil =>
    rw [List.flatMap_nil, List.nil_append] at hfuel ⊢
    by_cases hnil : rest = []
    · subst hnil
      cases fuel <;> exact ⟨rfl, fun l => by simp [decodeLoop, eq_comm]⟩
    · obtain ⟨err, herr⟩ := hrest.resolve_left hnil
      have hpos := List.length_pos_iff.2 hnil
      obtain ⟨fuel, rfl⟩ := Nat.exists_eq_add_one.2 (Nat.lt_of_lt_of_le hpos hfuel)
      have hstring : decodeString rest = ⟨(decodeString rest).buffers, .error err⟩ := by
        rw [← show (decodeString rest).result = .error err from herr]
      rw [decodeLoop_of_error hnil hstring]
      exact ⟨rfl, fun l => by simp [hnil]⟩
  | cons str names ih =>
    rw [List.forall_mem_cons] at hnames
    rw [List.flatMap_cons, List.append_assoc] at hfuel ⊢
    rw [List.length_append, length_frame] at hfuel
    obtain ⟨fuel, rfl⟩ := Nat.exists_eq_add_one.2 (Nat.lt_of_lt_of_le (by omega) hfuel)
    have hrestFuel : (names.flatMap frame ++ rest).length ≤ fuel := by omega
    obtain ⟨hbuffers, hresult⟩ := ih hnames.2 hrestFuel
    rw [decodeLoop_frame hnames.1]
    refine ⟨?_, fun l => ?_⟩
    · rw [hbuffers]
      rfl
    · dsimp only
      cases hloop : (decodeLoop fuel (names.flatMap frame ++ rest)).result with
      | error err =>
        have hnil : rest ≠ [] := fun hnil => by
          have hok := (hresult names).2 ⟨hnil, rfl⟩
          rw [hloop] at hok
          cases hok
        simp [Except.map, hnil]
      | ok l' =>
        obtain ⟨hnil, rfl⟩ := (hresult l').1 hloop
        simp [Except.map, hnil, eq_comm]

theorem decodeStrings_buffers (b : Bytes) :
    (decodeStrings b).buffers = (decodeLoop b.length b).buffers := by
  unfold decodeStrings
  split
  · next h => rw [h]
  · next h =>
    rw [h]
    split <;> rfl

theorem stringsAreSorted_iff {strs : List Bytes} :
    stringsAreSorted strs = true ↔ strs.Pairwise (· ≤ ·) := by
  rw [stringsAreSorted, decide_eq_true_iff, List.isChain_iff_pairwise]

theorem decodeStrings_eq_ok_iff_loop {b : Bytes} {strs : List Bytes} :
    (decodeStrings b).result = .ok strs ↔
      (decodeLoop b.length b).result = .ok strs ∧ strs.Pairwise (· ≤ ·) := by
  unfold decodeStrings
  split
  · next h => simp [h]
  · next made l h =>
    rw [h]
    by_cases hsorted : stringsAreSorted l = true
    · have hpairwise := stringsAreSorted_iff.1 hsorted
      rw [hsorted, if_neg (by decide)]
      constructor
      · rintro ⟨⟩
        exact ⟨rfl, hpairwise⟩
      · exact fun h => h.1
    · rw [if_pos (by simpa using hsorted)]
      refine iff_of_false (by simp) ?_
      rintro ⟨⟨⟩, hpairwise⟩
      exact hsorted (stringsAreSorted_iff.2 hpairwise)

/-- The byte strings that are read are those of sorted names. -/
theorem decodeStrings_eq_ok_iff {b : Bytes} {strs : List Bytes} :
    (decodeStrings b).result = .ok strs ↔
      (∀ s ∈ strs, IsName s) ∧ strs.Pairwise (· ≤ ·) ∧ b = strs.flatMap frame := by
  rw [decodeStrings_eq_ok_iff_loop]
  constructor
  · rintro ⟨hloop, hsorted⟩
    obtain ⟨names, rest, hnames, rfl, hrest⟩ := exists_names b
    obtain ⟨rfl, rfl⟩ := ((decodeLoop_flatMap hnames hrest le_rfl).2 strs).1 hloop
    exact ⟨hnames, hsorted, List.append_nil _⟩
  · rintro ⟨hnames, hsorted, rfl⟩
    have hstuck : framing.Stuck [] := .inl rfl
    have hloop := (decodeLoop_flatMap hnames hstuck le_rfl).2 strs
    rw [List.append_nil] at hloop
    exact ⟨hloop.2 ⟨rfl, rfl⟩, hsorted⟩

/-! ## One encoding for each list of names -/

theorem decodeStrings_encodeStrings {l : List Bytes} {b : Bytes} (h : encodeStrings l = .ok b) :
    (decodeStrings b).result = .ok (l.insertionSort (· ≤ ·)) := by
  obtain ⟨hnames, rfl⟩ := encodeStrings_eq_ok_iff.1 h
  refine decodeStrings_eq_ok_iff.2 ⟨fun s hs => hnames s ?_, List.pairwise_insertionSort _ _, rfl⟩
  rwa [List.mem_insertionSort] at hs

theorem encodeStrings_decodeStrings {l : List Bytes} {b : Bytes}
    (h : (decodeStrings b).result = .ok l) : encodeStrings l = .ok b := by
  obtain ⟨hnames, hsorted, rfl⟩ := decodeStrings_eq_ok_iff.1 h
  rw [encodeStrings_eq_ok_iff, hsorted.insertionSort_eq]
  exact ⟨hnames, rfl⟩

theorem encodeStrings_canonical :
    (∀ l, (∃ b, encodeStrings l = .ok b) ↔ ∀ s ∈ l, IsName s) ∧
      (∀ l b, encodeStrings l = .ok b →
        (decodeStrings b).result = .ok (l.insertionSort (· ≤ ·))) ∧
      (∀ b l, (decodeStrings b).result = .ok l → encodeStrings l = .ok b) ∧
      (∀ l l' b b', encodeStrings l = .ok b → encodeStrings l' = .ok b' →
        (b = b' ↔ l.Perm l')) ∧
      ∀ b b' l, (decodeStrings b).result = .ok l → (decodeStrings b').result = .ok l → b = b' := by
  refine ⟨fun l => ?_, fun l b => decodeStrings_encodeStrings,
    fun b l => encodeStrings_decodeStrings, fun l l' b b' h h' => ?_, fun b b' l h h' => ?_⟩
  · constructor
    · rintro ⟨b, hb⟩
      exact (encodeStrings_eq_ok_iff.1 hb).1
    · exact fun hnames => ⟨_, encodeStrings_eq_ok_iff.2 ⟨hnames, rfl⟩⟩
  · have hdecode := decodeStrings_encodeStrings h
    have hdecode' := decodeStrings_encodeStrings h'
    rw [← Runs.insertionSort_eq_iff fun a _ b _ => Std.le_antisymm]
    constructor
    · rintro rfl
      exact Except.ok.inj (hdecode.symm.trans hdecode')
    · intro hsort
      rw [(encodeStrings_eq_ok_iff.1 h).2, (encodeStrings_eq_ok_iff.1 h').2, hsort]
  · have hb := encodeStrings_decodeStrings h
    exact Except.ok.inj (hb.symm.trans (encodeStrings_decodeStrings h'))

/-! ## The buffers of the decoder -/

/-- What a call of `UnmarshalProto` on these models makes, in bytes. -/
def allocated (models : Bytes) : Nat := (Credentials.unmarshalProto (some ⟨models⟩)).buffers.sum

/-- A name that is cut off declares no more than what is left of it and four bytes for each frame
that has begun. -/
def DeclaresWithin (b : Bytes) : Prop :=
  ∀ (names : List Bytes) (p : UInt32) (rest : Bytes), (∀ s ∈ names, IsName s) →
    b = names.flatMap frame ++ (LittleEndian.putUint32 p ++ rest) → rest.length < p.toNat →
      p.toNat ≤ rest.length + 4 * (names.length + 1)

theorem length_flatMap_frame (names : List Bytes) :
    (names.flatMap frame).length = (names.map List.length).sum + 4 * names.length := by
  induction names with
  | nil => rfl
  | cons str names ih =>
    rw [List.flatMap_cons, List.length_append, length_frame, ih, List.map_cons, List.sum_cons,
      List.length_cons]
    omega

theorem allocated_flatMap {names : List Bytes} {rest : Bytes} (hnames : ∀ s ∈ names, IsName s)
    (hrest : framing.Stuck rest) :
    allocated (names.flatMap frame ++ rest) =
      (names.map List.length).sum + (decodeString rest).buffers.sum := by
  have hbuffers : allocated (names.flatMap frame ++ rest) =
      (decodeStrings (names.flatMap frame ++ rest)).buffers.sum := rfl
  rw [hbuffers, decodeStrings_buffers, (decodeLoop_flatMap hnames hrest le_rfl).1,
    List.sum_append]

theorem decodeString_cut {p : UInt32} {rest : Bytes} (h : rest.length < p.toNat) :
    (decodeString (LittleEndian.putUint32 p ++ rest)).buffers = [p.toNat] ∧
      framing.Stuck (LittleEndian.putUint32 p ++ rest) := by
  have hp : p ≠ 0 := fun h0 => by
    rw [h0] at h
    exact absurd h (Nat.not_lt_zero _)
  rw [decodeString_putUint32 hp]
  refine ⟨rfl, .inr ?_⟩
  show ∃ e, (decodeString (LittleEndian.putUint32 p ++ rest)).result = .error e
  rw [decodeString_putUint32 hp]
  cases hread : readString p.toNat rest with
  | error err => exact ⟨err, rfl⟩
  | ok r =>
    obtain ⟨hrest, hlen, -⟩ := (readString_eq_ok_iff (by omega)).1 hread
    have hsum := congrArg List.length hrest
    rw [List.length_append] at hsum
    omega

theorem allocated_le_iff (b : Bytes) : allocated b ≤ b.length ↔ DeclaresWithin b := by
  constructor
  · rintro h names p rest hnames rfl hcut
    obtain ⟨hbuffers, hstuck⟩ := decodeString_cut hcut
    rw [allocated_flatMap hnames hstuck, hbuffers, List.length_append, length_flatMap_frame,
      List.length_append, LittleEndian.length_putUint32, List.sum_singleton] at h
    omega
  · intro h
    obtain ⟨names, rest, hnames, rfl, hrest⟩ := exists_names b
    rw [allocated_flatMap hnames hrest, List.length_append, length_flatMap_frame]
    rcases decodeString_cases rest with ⟨hnone, -⟩ | ⟨p, rest, hp, rfl⟩
    · rw [hnone, List.sum_nil]
      omega
    · have hbound : p.toNat ≤ rest.length + 4 * (names.length + 1) := by
        by_cases hcut : rest.length < p.toNat
        · exact h names p rest hnames rfl hcut
        · omega
      rw [decodeString_putUint32 hp, List.length_append, LittleEndian.length_putUint32,
        List.sum_singleton]
      omega

/-- Four bytes that declare a name of `2 ^ 32 - 1` bytes. -/
theorem allocated_hostile :
    allocated [255, 255, 255, 255] = 4294967295 ∧ ¬ allocated [255, 255, 255, 255] ≤ 4 := by
  decide

end Auth

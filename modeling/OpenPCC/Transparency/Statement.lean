import Mathlib.Data.Finmap
import OpenPCC.Go.Hex
import OpenPCC.Go.Utf8

/-!
# Statements (`statement.go`)

What a bundle attests: subjects with their digests, and a predicate. The type of predicates is left
open, since they are only handed to `json.Marshal`.
-/

namespace Transparency

open Go

structure StatementSubject where
  name : Bytes
  digest : Finmap fun _ : Bytes => Bytes
  deriving DecidableEq

structure Statement (Predicate : Type) where
  subject : List StatementSubject
  predicateType : Bytes
  predicate : Predicate
  deriving DecidableEq

/-- What is looked at of a `url.URL`. -/
structure URL where
  scheme : Bytes
  host : Bytes

/-- What is called of other packages: `url.Parse`, `json.Marshal` and `sha256.Sum256`. -/
structure Packages (Predicate : Type) where
  parse : Bytes → Except Err URL
  marshal : Predicate → Except Err Bytes
  sum256 : Bytes → Vector UInt8 32

def StatementSubject.hexSha256Digest (s : StatementSubject) : Bytes :=
  (s.digest.lookup (utf8 "sha256".toList)).getD []

def validateSha256Hash (d : Bytes) : Except Err Unit :=
  if d.length ≠ 32 then
    .error (.new "invalid sha256 digest, want %d bytes, got %d bytes" [.int 32, .int d.length])
  else .ok ()

variable {Predicate : Type}

def validatePredicateType (P : Packages Predicate) (s : Bytes) : Except Err Unit :=
  match P.parse s with
  | .error err => .error (.errorf "invalid predicate type: %w" [] err)
  | .ok ptURL =>
    if ptURL.scheme = [] then .error (.new "predicate type is missing scheme" [])
    else if ptURL.host = [] then .error (.new "predicate type is missing host" [])
    else .ok ()

/-- The loop of `Validate`. -/
def validateSubjects : List Bytes → List StatementSubject → Except Err Unit
  | _, [] => .ok ()
  | seen, subject :: subjects =>
    if subject.name ∈ seen then .error (.new "duplicate subject %s" [.str subject.name])
    else if subject.hexSha256Digest.length = 0 then .error (.new "missing sha256 digest" [])
    else
      match Hex.decodeString subject.hexSha256Digest with
      | .error err => .error (.errorf "invalid sha256 digest, not hex-encoded: %w" [] err)
      | .ok rawHash =>
        match validateSha256Hash rawHash with
        | .error err => .error err
        | .ok () => validateSubjects (subject.name :: seen) subjects

def nilStatement : Err := .new "nil statement" []

/-- `Validate`; `none` is the nil pointer. -/
def Statement.validate (P : Packages Predicate) : Option (Statement Predicate) → Except Err Unit
  | none => .error nilStatement
  | some s =>
    if s.subject.length = 0 then .error (.new "missing subject" [])
    else
      match validateSubjects [] s.subject with
      | .error err => .error err
      | .ok () => validatePredicateType P s.predicateType

/-! ## What is valid -/

theorem validateSha256Hash_eq_ok {d : Bytes} : validateSha256Hash d = .ok () ↔ d.length = 32 := by
  simp [validateSha256Hash]

/-- The subject has a sha256 digest. -/
def StatementSubject.Digested (s : StatementSubject) : Prop :=
  ∃ h, Hex.decodeString s.hexSha256Digest = .ok h ∧ h.length = 32

theorem validateSubjects_eq_ok {seen : List Bytes} {subjects : List StatementSubject}
    (h : validateSubjects seen subjects = .ok ()) :
    (∀ s ∈ subjects, s.name ∉ seen) ∧ (subjects.map (·.name)).Nodup ∧
      ∀ s ∈ subjects, s.Digested := by
  induction subjects generalizing seen with
  | nil => simp
  | cons s subjects ih =>
    rw [validateSubjects] at h
    split_ifs at h with hseen hempty
    split at h
    · cases h
    next rawHash hdecode =>
    split at h
    · cases h
    next hhash =>
    obtain ⟨hnew, hnodup, hdigested⟩ := ih h
    refine ⟨List.forall_mem_cons.2 ⟨hseen, fun s' hs' => ?_⟩, List.nodup_cons.2 ⟨?_, hnodup⟩,
      List.forall_mem_cons.2 ⟨⟨rawHash, hdecode, validateSha256Hash_eq_ok.1 hhash⟩, hdigested⟩⟩
    · exact List.not_mem_of_not_mem_cons (hnew s' hs')
    · intro hmem
      obtain ⟨s', hs', hname⟩ := List.mem_map.1 hmem
      exact List.ne_of_not_mem_cons (hnew s' hs') hname

/-- A statement that passes `Validate`. -/
structure Statement.Valid (P : Packages Predicate) (s : Statement Predicate) : Prop where
  ne_nil : s.subject ≠ []
  nodup : (s.subject.map (·.name)).Nodup
  digested : ∀ x ∈ s.subject, x.Digested
  predicateType : validatePredicateType P s.predicateType = .ok ()

theorem Statement.valid_of_validate {P : Packages Predicate} {s : Statement Predicate}
    (h : Statement.validate P (some s) = .ok ()) : s.Valid P := by
  rw [Statement.validate] at h
  split_ifs at h with hlen
  split at h
  · cases h
  next hsubjects =>
  obtain ⟨-, hnodup, hdigested⟩ := validateSubjects_eq_ok hsubjects
  exact ⟨fun hnil => hlen (by rw [hnil]; rfl), hnodup, hdigested, h⟩

end Transparency

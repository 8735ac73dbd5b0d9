import Mathlib.Data.List.AList
import Mathlib.Data.List.Sort
import OpenPCC.Lib.Glob
import OpenPCC.Transparency.Statement

/-!
# Signed bundles (`caching_signer.go`, `bundle_importer.go`, `bundle_finder.go`)

Bundles are kept in a store under keys that are made from what they attest
(`newStatementBundleKey`). `signStatement` returns the stored bundle of a statement or signs it,
`importStatementBundle` stores a bundle from elsewhere, and `findStatementBundles` finds bundles
by patterns for keys.

With a bundle the store of the model keeps what it was signed for, which the code does not see.
-/

namespace Transparency

open Go

variable {Predicate : Type}

/-! ## Keys -/

def maxCacheableSubjects : Nat := 10

def hashLen : Nat := 12

def hexHash (P : Packages Predicate) (b : Bytes) : Bytes :=
  Hex.encodeToString ((P.sum256 b).toList.take hashLen)

/-- The subjects in the order of their names. -/
def Statement.ordered (s : Statement Predicate) : List StatementSubject :=
  s.subject.insertionSort fun a b => a.name ≤ b.name

/-- The names with their digests, one after the other. -/
def joined (subjects : List StatementSubject) : Bytes :=
  subjects.flatMap fun subject => subject.name ++ subject.hexSha256Digest

/-- The parts of the digests that stand in a key. -/
def hexDigests (subjects : List StatementSubject) : List Bytes :=
  subjects.map fun subject => subject.hexSha256Digest.take (hashLen * 2)

/-- The text from which the hash of a statement is taken. -/
def Statement.idInput (s : Statement Predicate) (predicateJSON : Bytes) : Bytes :=
  joined s.ordered ++ s.predicateType ++ predicateJSON

/-- The key of a statement whose predicate has the text `predicateJSON`. -/
def Statement.bundleKey (P : Packages Predicate) (s : Statement Predicate) (predicateJSON : Bytes) :
    Bytes :=
  let predicateTypePart := hexHash P s.predicateType
  let idPart := hexHash P (s.idInput predicateJSON)
  let hexDigestsPart := (utf8 "_".toList).intercalate (hexDigests s.ordered)
  utf8 "statements/".toList ++ predicateTypePart ++ utf8 "/".toList ++ idPart ++
    utf8 "/".toList ++ hexDigestsPart ++ utf8 ".pb".toList

def newStatementBundleKey (P : Packages Predicate) : Option (Statement Predicate) → Except Err Bytes
  | none => .error (.errorf "invalid statement: %w" [] nilStatement)
  | some s =>
    match Statement.validate P (some s) with
    | .error err => .error (.errorf "invalid statement: %w" [] err)
    | .ok () =>
      if s.subject.length > maxCacheableSubjects then
        .error (.new "can't create key for statement with more than %d subjects, got %d subjects"
          [.int maxCacheableSubjects, .int s.subject.length])
      else
        match P.marshal s.predicate with
        | .error err => .error (.errorf "failed to marshal predicate to json: %w" [] err)
        | .ok predicateJSON => .ok (s.bundleKey P predicateJSON)

/-! ## The store -/

/-- What a bundle was signed for. -/
inductive Content (Predicate : Type) where
  | data (data : Bytes)
  | statement (s : Statement Predicate)
  deriving DecidableEq

/-- A bundle, with what it was signed for. -/
structure Bundle (Predicate : Type) where
  bytes : Bytes
  content : Content Predicate
  deriving DecidableEq

/-- A `WriteStore` and `ReadStore`. -/
abbrev Store (Predicate : Type) := AList fun _ : Bytes => Bundle Predicate

/-- Errors of `FindByKey`. -/
inductive FindErr where
  /-- `cserrors.ErrNotFound` -/
  | notFound
  | other (err : Err)

/-- What a call meets. -/
structure CallEnv where
  /-- `FindByKey` fails -/
  findErr : Option Err
  /-- the result of the signer -/
  signed : Except Err Bytes
  /-- `Insert` fails -/
  insertErr : Option Err

def Store.findByKey (store : Store Predicate) (env : CallEnv) (key : Bytes) :
    Except FindErr (Bundle Predicate) :=
  match env.findErr, store.lookup key with
  | some err, _ => .error (.other err)
  | none, none => .error .notFound
  | none, some bundle => .ok bundle

/-- `Insert`; nothing is stored if it fails. -/
def Store.insertBundle (store : Store Predicate) (env : CallEnv) (key : Bytes)
    (bundle : Bundle Predicate) : Except Err (Store Predicate) :=
  match env.insertErr with
  | some err => .error err
  | none => .ok (store.insert key bundle)

/-- The bundles whose keys match. The patterns that are used have no other special characters than
`*` (byte 42); `/` is byte 47. -/
def Store.findByGlob (store : Store Predicate) (glob : Bytes) : List (Bundle Predicate) :=
  (store.entries.filter fun e => Glob.accepts 42 47 glob e.1).map (·.2)

/-! ## Signing (`CachingSigner`) -/

/-- `signAndInsertData` and `signAndInsertStatement`, by what is signed. -/
def signAndInsert (store : Store Predicate) (env : CallEnv) (key : Bytes)
    (content : Content Predicate) : Except Err (Bundle Predicate) × Store Predicate :=
  match env.signed with
  | .error err => (.error (.errorf "failed to sign statement: %w" [] err), store)
  | .ok bytes =>
    match store.insertBundle env key ⟨bytes, content⟩ with
    | .error err => (.error (.errorf "failed to insert bundle: %w" [] err), store)
    | .ok store' => (.ok ⟨bytes, content⟩, store')

def dataKey (P : Packages Predicate) (data : Bytes) : Bytes :=
  utf8 "data/".toList ++ hexHash P data ++ utf8 ".pb".toList

def sign (P : Packages Predicate) (store : Store Predicate) (data : Bytes) (env : CallEnv) :
    Except Err (Bundle Predicate) × Store Predicate :=
  match store.findByKey env (dataKey P data) with
  | .error .notFound => signAndInsert store env (dataKey P data) (.data data)
  | .error (.other err) => (.error (.errorf "failed to find bundle: %w" [] err), store)
  | .ok bundle => (.ok bundle, store)

/-- `SignStatement`, with the key that it returns. -/
def signStatement (P : Packages Predicate) (store : Store Predicate) (env : CallEnv) :
    Option (Statement Predicate) → (Bytes × Except Err (Bundle Predicate)) × Store Predicate
  | none =>
    (([], .error (.errorf "failed to create key: %w" []
      (.errorf "invalid statement: %w" [] nilStatement))), store)
  | some s =>
    match newStatementBundleKey P (some s) with
    | .error err => (([], .error (.errorf "failed to create key: %w" [] err)), store)
    | .ok key =>
      match store.findByKey env key with
      | .error .notFound =>
        let r := signAndInsert store env key (.statement s)
        ((key, r.1), r.2)
      | .error (.other err) => (([], .error (.errorf "failed to find bundle: %w" [] err)), store)
      | .ok bundle => ((key, .ok bundle), store)

/-! ## Importing (`BundleImporter`) -/

/-- `ImportStatementBundle`, with the result of `VerifyStatementIntegrity`. -/
def importStatementBundle (P : Packages Predicate) (store : Store Predicate) (b : Bytes)
    (verified : Except Err (Statement Predicate)) (env : CallEnv) :
    Except Err (Bundle Predicate) × Store Predicate :=
  match verified with
  | .error err => (.error (.errorf "failed to verify statement bundle integrity: %w" [] err), store)
  | .ok s =>
    match newStatementBundleKey P (some s) with
    | .error err => (.error (.errorf "failed to create key: %w" [] err), store)
    | .ok key =>
      match store.findByKey env key with
      | .error .notFound =>
        match store.insertBundle env key ⟨b, .statement s⟩ with
        | .error err => (.error (.errorf "failed to insert bundle: %w" [] err), store)
        | .ok store' => (.ok ⟨b, .statement s⟩, store')
      | .error (.other err) =>
        (.error (.errorf "failed to find existing bundle: %w" [] err), store)
      | .ok bundle =>
        if bundle.bytes ≠ b then
          (.error (.new ("stored bundle does not match imported bundle even though they have " ++
            "the same key") []), store)
        else (.ok ⟨b, .statement s⟩, store)

/-! ## Finding (`BundleFinder`) -/

structure StatementBundleQuery where
  predicateType : Bytes
  hash : Bytes
  deriving DecidableEq

def predicateMatcher (P : Packages Predicate) (q : StatementBundleQuery) : Except Err Bytes :=
  if q.predicateType = [] then .ok (utf8 "*".toList)
  else
    match validatePredicateType P q.predicateType with
    | .error err => .error err
    | .ok () => .ok (hexHash P q.predicateType)

def digestMatcher (q : StatementBundleQuery) : Except Err Bytes :=
  if q.hash.length > 0 then
    match validateSha256Hash q.hash with
    | .error err => .error err
    | .ok () =>
      .ok (utf8 "*".toList ++ Hex.encodeToString (q.hash.take hashLen) ++ utf8 "*.pb".toList)
  else .ok (utf8 "*.pb".toList)

/-- `FindStatementBundles`, on a store that can be read. -/
def findStatementBundles (P : Packages Predicate) (store : Store Predicate)
    (q : StatementBundleQuery) : Except Err (List (Bundle Predicate)) :=
  match predicateMatcher P q with
  | .error err => .error err
  | .ok predicateMatcher =>
    match digestMatcher q with
    | .error err => .error err
    | .ok digestMatcher =>
      .ok (store.findByGlob (utf8 "statements/".toList ++ predicateMatcher ++ utf8 "/*/".toList ++
        digestMatcher))

/-! ## Runs -/

inductive Call (Predicate : Type) where
  | sign (data : Bytes) (env : CallEnv)
  | signStatement (statement : Option (Statement Predicate)) (env : CallEnv)
  | importBundle (b : Bytes) (verified : Except Err (Statement Predicate)) (env : CallEnv)

/-- The store after a call. -/
def Call.exec (P : Packages Predicate) (store : Store Predicate) : Call Predicate → Store Predicate
  | .sign data env => (Transparency.sign P store data env).2
  | .signStatement statement env => (Transparency.signStatement P store env statement).2
  | .importBundle b verified env => (importStatementBundle P store b verified env).2

/-- The statement that a call is about. -/
def Call.statement? : Call Predicate → Option (Statement Predicate)
  | .sign _ _ => none
  | .signStatement statement _ => statement
  | .importBundle _ (.ok s) _ => some s
  | .importBundle _ (.error _) _ => none

/-- The store after a run from an empty one. -/
def stored (P : Packages Predicate) (calls : List (Call Predicate)) : Store Predicate :=
  calls.foldl (Call.exec P) ∅

end Transparency

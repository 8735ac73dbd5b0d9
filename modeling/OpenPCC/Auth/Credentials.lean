import Mathlib.Data.List.Sort
import OpenPCC.Go.Error
import OpenPCC.Go.Utf8

/-!
# Credentials and badges (`auth/credentialing/credentials.go`, `badge.go`)

The models of a user are encoded as one byte string: the names in order, each with its length in
four bytes before it. `encodeStrings` also leaves the slice of its caller sorted, which nothing here
reads. Decoding makes a buffer for each name; the lengths of these buffers are part of what a call
of `decodeStrings` is modelled as (`Made`).

The writes to a `bytes.Buffer` do not fail.
-/

namespace Auth

open Go

/-- `PrefixLen`. -/
def prefixLen : Nat := 4

/-- `math.MaxUint32`. -/
def maxUint32 : Nat := 2 ^ 32 - 1

structure Credentials where
  models : List Bytes
  deriving DecidableEq

structure Badge where
  credentials : Credentials
  signature : Bytes
  deriving DecidableEq

namespace Pb

/-- `protos.Credentials`. -/
structure Credentials where
  models : Bytes
  deriving DecidableEq

/-- `protos.Badge`; a message that is not set is `none`. -/
structure Badge where
  credentials : Option Credentials
  signature : Bytes
  deriving DecidableEq

end Pb

def isValidASCII (str : Bytes) : Bool :=
  (runes str).all fun c => !(127 ≤ c.char.toNat || c.char.toNat < 32)

/-! ## Encoding -/

/-- `encodeString`: the buffer with the name, and the number of bytes written. -/
def encodeString (buf str : Bytes) : Except Err (Bytes × Nat) :=
  if !isValidASCII str then
    .error (.new "unsupported string: contains non-ascii characters" [])
  else if str.length = 0 then
    .error (.new "failed to encode string: length must be greater than 0" [])
  else if maxUint32 < str.length then
    .error (.new "failed to encode string: exceeded maximum length" [])
  else
    let strLength := UInt32.ofNat str.length
    .ok (buf ++ LittleEndian.putUint32 strLength ++ str, str.length + prefixLen)

/-- The loop of `encodeStrings`, over the sorted names. -/
def encodeLoop : Bytes → List Bytes → Except Err Bytes
  | stringsBuf, [] => .ok stringsBuf
  | stringsBuf, str :: strs =>
    match encodeString stringsBuf str with
    | .error err => .error err
    | .ok (stringsBuf, _) => encodeLoop stringsBuf strs

def encodeStrings (strs : List Bytes) : Except Err Bytes :=
  encodeLoop [] (strs.insertionSort (· ≤ ·))

/-! ## Decoding -/

/-- The result of a call, with the lengths of the buffers that it made for names. -/
structure Made (α : Type) where
  buffers : List Nat
  result : Except Err α

/-- `io.EOF`. -/
def errEOF : Err := .new "EOF" []

/-- `io.ErrUnexpectedEOF`. -/
def errUnexpectedEOF : Err := .new "unexpected EOF" []

/-- What `decodeString` does with the rest of the buffer, with `strBytes` made. -/
def readString (strLen : Nat) (buf : Bytes) : Except Err (Bytes × Bytes) :=
  if buf.length = 0 then .error (.errorf "failed to decode string: %w" [] errEOF)
  else
    let str := buf.take strLen
    if str.length ≠ strLen then
      .error (.new "failed to decode string. unexpected number of bytes read" [])
    else if !isValidASCII str then
      .error (.new "failed to decode string: contains non-ascii characters" [])
    else .ok (str, buf.drop strLen)

/-- `decodeString`: the name, and what is left in the buffer. -/
def decodeString (buf : Bytes) : Made (Bytes × Bytes) :=
  if buf.length = 0 then
    ⟨[], .error (.errorf "failed to decode string length: %w" [] errEOF)⟩
  else if buf.length < prefixLen then
    ⟨[], .error (.errorf "failed to decode string length: %w" [] errUnexpectedEOF)⟩
  else
    let strLen := LittleEndian.uint32 (buf.take prefixLen)
    if strLen = 0 then
      ⟨[], .error (.new "failed to decode string, length must be greater than 0" [])⟩
    else
      -- the buffer is made before a byte of the name is read
      ⟨[strLen.toNat], readString strLen.toNat (buf.drop prefixLen)⟩

/-- The loop of `decodeStrings`. An iteration takes at least one byte, so the length of the buffer
is enough as a number of iterations. -/
def decodeLoop : Nat → Bytes → Made (List Bytes)
  | 0, _ => ⟨[], .ok []⟩
  | fuel + 1, buf =>
    if buf.length = 0 then ⟨[], .ok []⟩
    else
      match decodeString buf with
      | ⟨made, .error err⟩ => ⟨made, .error err⟩
      | ⟨made, .ok (str, rest)⟩ =>
        let more := decodeLoop fuel rest
        ⟨made ++ more.buffers, more.result.map (str :: ·)⟩

/-- `sort.StringsAreSorted`. -/
def stringsAreSorted (strs : List Bytes) : Bool := decide (strs.IsChain (· ≤ ·))

def decodeStrings (strList : Bytes) : Made (List Bytes) :=
  match decodeLoop strList.length strList with
  | ⟨made, .error err⟩ => ⟨made, .error err⟩
  | ⟨made, .ok strs⟩ =>
    if !stringsAreSorted strs then
      ⟨made, .error (.new "failed to decode strings list. strings are not sorted" [])⟩
    else ⟨made, .ok strs⟩

/-! ## Messages -/

def Credentials.marshalProto (c : Credentials) : Except Err Pb.Credentials :=
  (encodeStrings c.models).map Pb.Credentials.mk

/-- `Credentials.UnmarshalProto`, which sets the models only if it returns no error. The models of a
nil message are empty. -/
def Credentials.unmarshalProto (creds : Option Pb.Credentials) : Made Credentials :=
  let modelsBytearray := (creds.map (·.models)).getD []
  let models := decodeStrings modelsBytearray
  ⟨models.buffers, models.result.map Credentials.mk⟩

def Badge.marshalProto (b : Badge) : Except Err Pb.Badge :=
  (b.credentials.marshalProto).map fun creds => ⟨some creds, b.signature⟩

/-- `b.UnmarshalProto(badge)`: the badge `b` after the call, and the error. -/
def Badge.unmarshalProto (b : Badge) (badge : Option Pb.Badge) : Badge × Option Err :=
  match (Credentials.unmarshalProto (badge.bind (·.credentials))).result with
  | .error err => (b, some err)
  | .ok credentials => (⟨credentials, (badge.map (·.signature)).getD []⟩, none)

end Auth

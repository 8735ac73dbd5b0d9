import OpenPCC.Attest.Verify
import OpenPCC.Router.Candidates

/-!
# Encapsulated requests and responses (`messages/messages.go`)

A request is encoded, sealed once and its key encapsulated for every candidate. The media type says
whether the message is chunked; it is authenticated with the message and tells the receiver how to
open it.

`Bhttp` is the encoding of requests and responses, `TwoWay` the sealing. The law of `TwoWay` is that
a node whose public key was used opens the request, and that the opener that came with the key opens
what the node seals in return. Bodies are read as a whole.
-/

namespace Client

open Go Router

/-- The binary encoding of HTTP messages: an encoded message is its bytes and whether its length is
indeterminate. -/
structure Bhttp (Req Resp : Type) where
  encodeRequest : Req → Except Err (Bytes × Bool)
  decodeRequest : Bytes → Except Err Req
  encodeResponse : Resp → Except Err (Bytes × Bool)
  decodeResponse : Bytes → Except Err Resp
  decode_encodeRequest : ∀ req msg chunked, encodeRequest req = .ok (msg, chunked) →
    decodeRequest msg = .ok req
  decode_encodeResponse : ∀ resp msg chunked, encodeResponse resp = .ok (msg, chunked) →
    decodeResponse msg = .ok resp

/-- `twoway`: sealers of requests (`Sealer`), openers of responses on the client (`Opener`) and
openers of requests on the node (`Answerer`). The `Nat` is the randomness of a call. The media type
and whether the message is chunked are arguments of both sides. -/
structure TwoWay (PK SK Sealer Opener Answerer : Type) where
  publicKey : SK → PK
  unmarshalPublicKey : Attest.ComputeData → Except Err PK
  newRequestSealer : Nat → Bytes → Bytes → Bool → Except Err Sealer
  /-- what is read from a sealer -/
  body : Sealer → Bytes
  encapsulateKey : Sealer → Nat → PK → Except Err (Bytes × Opener)
  newRequestOpener : SK → Bytes → Bytes → Bytes → Bool → Except Err (Bytes × Answerer)
  newResponseSealer : Answerer → Bytes → Bytes → Bool → Except Err Bytes
  newResponseOpener : Opener → Bytes → Bytes → Bool → Except Err Bytes
  opens : ∀ seed msg mediaType chunked sealer seed' sk key opener,
    newRequestSealer seed msg mediaType chunked = .ok sealer →
    encapsulateKey sealer seed' (publicKey sk) = .ok (key, opener) →
    ∃ answerer, newRequestOpener sk key (body sealer) mediaType chunked = .ok (msg, answerer) ∧
      ∀ reply replyType replyChunked out,
        newResponseSealer answerer reply replyType replyChunked = .ok out →
        newResponseOpener opener out replyType replyChunked = .ok reply

def mediaTypeResponse : Bytes := utf8 "application/confsec-res".toList

def mediaTypeResponseChunked : Bytes := utf8 "application/confsec-chunked-res".toList

/-- The media type that a message is sent with. -/
def mediaTypeOf (plain ifChunked : Bytes) (chunked : Bool) : Bytes :=
  if chunked then ifChunked else plain

/-- The options for a media type: whether the message is opened in chunks. -/
def chunkedOf (plain ifChunked mediaType : Bytes) : Except Err Bool :=
  if mediaType = plain then .ok false
  else if mediaType = ifChunked then .ok true
  else .error (.new "unknown media type" [])

section
variable {Req Resp PK SK Sealer Opener Answerer : Type} (B : Bhttp Req Resp)
  (T : TwoWay PK SK Sealer Opener Answerer)

def encapsulateRequest (seed : Nat) (req : Req) : Except Err (Sealer × Bytes) := do
  let (reqMsg, chunked) ← (B.encodeRequest req).mapError
    (.errorf "failed to encode request to bhttp: %w" [])
  let mediaType := mediaTypeOf mediaTypeRequest mediaTypeRequestChunked chunked
  let sealer ← (T.newRequestSealer seed reqMsg mediaType chunked).mapError
    (.errorf "failed to create new request sealer: %w" [])
  return (sealer, mediaType)

def decapsulateRequest (sk : SK) (encapKey mediaType body : Bytes) :
    Except Err (Req × Answerer) := do
  let chunked ← chunkedOf mediaTypeRequest mediaTypeRequestChunked mediaType
  let (reqMsg, answerer) ← (T.newRequestOpener sk encapKey body mediaType chunked).mapError
    (.errorf "failed to create request opener: %w" [])
  let req ← (B.decodeRequest reqMsg).mapError
    (.errorf "failed to decode request from bhttp: %w" [])
  return (req, answerer)

def encapsulateResponse (answerer : Answerer) (resp : Resp) : Except Err (Bytes × Bytes) := do
  let (respMsg, chunked) ← (B.encodeResponse resp).mapError
    (.errorf "failed to encode response to bhttp: %w" [])
  let mediaType := mediaTypeOf mediaTypeResponse mediaTypeResponseChunked chunked
  let out ← (T.newResponseSealer answerer respMsg mediaType chunked).mapError
    (.errorf "failed to create response sealer: %w" [])
  return (out, mediaType)

def decapsulateResponse (opener : Opener) (mediaType body : Bytes) : Except Err Resp := do
  let chunked ← chunkedOf mediaTypeResponse mediaTypeResponseChunked mediaType
  let respMsg ← (T.newResponseOpener opener body mediaType chunked).mapError
    (.errorf "failed to create response opener: %w" [])
  (B.decodeResponse respMsg).mapError (.errorf "failed to decode response from bhttp: %w" [])

end

end Client

import OpenPCC.Go.Error
import OpenPCC.Lib.Rpc

/-!
# Requests with retries (`httpretry/httpretry.go`)

`DoWith` sends a request again until a response passes the check, an attempt fails with an error
that is not retried, the backoff stops or the context ends. It is the caller of an `Rpc.Protocol`:
a step `fail` is an attempt without a response that can be used, `retry` is the end of a pause, and
`stop` is the decision of the backoff, with the error of the context if that has ended.

Every attempt sends the request that the caller made. One that cannot send it is one whose request
is lost.
-/

namespace Httpretry

open Go

variable {S I R : Type}

/-- An error of `c.Do`, with what `DoWith` asks about it. -/
structure DoError where
  err : Err
  /-- `errors.Is(err, context.Canceled)` -/
  canceled : Bool := false
  /-- `errors.As(err, &netErr)` -/
  netErr : Bool := false
  /-- `netErr.Timeout()` -/
  timeout : Bool := false
  /-- the text of the error contains "connection refused" -/
  connectionRefused : Bool := false
  deriving DecidableEq

def DoError.retried (e : DoError) : Bool :=
  if e.canceled then false
  else if e.netErr then e.timeout || e.connectionRefused
  else false

/-- Why an attempt has no response, or one that cannot be used: the body of a response that is
retried cannot be read or closed, or the caller of `DoWith` cannot decode the one it gets. The error
of a context that ends during a pause is `ended`. -/
inductive Failure where
  | doError (e : DoError)
  | readBody (err : Err)
  | closeBody (err : Err)
  | ended (err : Err)
  | decode (err : Err)
  deriving DecidableEq

def Failure.retried : Failure → Bool
  | doError e => e.retried
  | readBody _ | closeBody _ => true
  | ended _ | decode _ => false

/-- The error that the callers of `DoWith` in the HTTP clients return. -/
def Failure.err : Failure → Err
  | doError e => .errorf "http request failed: %w" [] e.err
  | readBody err => .errorf "http request failed: %w" [] (.errorf "failed to read body: %w" [] err)
  | closeBody err =>
    .errorf "http request failed: %w" [] (.errorf "failed to close response body: %w" [] err)
  | ended err => .errorf "http request failed: %w" [] err
  | decode err => .errorf "failed to decode response: %w" [] err

def retry5xx (statusCode : Nat) : Bool := 500 ≤ statusCode

/-- `DoWith` with `Retry5xx`, against a server. A response with a status of 500 or more is returned
if the backoff stops after it. -/
def doWith (statusCode : R → Nat) (serve : I → S → R × S) : Rpc.Protocol S I R Failure where
  serve := serve
  again
    | .ok r => retry5xx (statusCode r)
    | .error f => f.retried

end Httpretry
